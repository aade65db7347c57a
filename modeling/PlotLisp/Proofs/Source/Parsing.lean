import PlotLisp.Proofs.Source.Nesting

/-!
# Parsing

What parsing a text comes to, said of the lexemes that are read from it: an error where it breaks off
or its lexemes are not one form, otherwise the first malformed number, and otherwise the tree of the
form. `parseProgram` comes to just that, and so does the grammar of parsing expressions.
-/

namespace PlotLisp

/-- The word begins with a digit and is no number. -/
def IsMalformed (word : String) : Prop :=
  (∃ c ∈ word.toList.head?, c.isDigit = true) ∧ numberOfWord? word = none

/-- What parsing a text comes to. -/
inductive ParsesTo (text : String) : Except ParseError Expression → Prop where
  /-- The text ends within a string. -/
  | breaksOff (h_text : BreaksOff text.toList) : ParsesTo text (.error .notAForm)
  /-- The lexemes are not exactly one form, whatever the words among them. -/
  | notAForm {lexemes} (h_text : Scans text.toList lexemes [])
      (h_form : ∀ head items, (Form.node head items).lexemes ≠ lexemes) :
      ParsesTo text (.error .notAForm)
  /-- One of the words is malformed, and none of those before it. -/
  | malformed {head items before word after}
      (h_text : Scans text.toList (Form.node head items).lexemes [])
      (h_lexemes : (Form.node head items).lexemes = before ++ .token (.bare word) :: after)
      (h_word : IsMalformed word)
      (h_before : ∀ earlier, .token (.bare earlier) ∈ before → ¬ IsMalformed earlier) :
      ParsesTo text (.error (.malformedNumber word))
  /-- None is. -/
  | tree {head items} (h_text : Scans text.toList (Form.node head items).lexemes [])
      (h_words : ∀ word, .token (.bare word) ∈ (Form.node head items).lexemes → ¬ IsMalformed word) :
      ParsesTo text (.ok (Form.node head items).tree)

/-! ## Malformed numbers among lexemes -/

theorem malformed?_eq_some_iff {lexeme : Lexeme} {word : String} :
    lexeme.malformed? = some word ↔ lexeme = .token (.bare word) ∧ IsMalformed word := by
  cases lexeme with
  | opening | closing => simp [Lexeme.malformed?]
  | token token =>
    cases token with
    | quoted text => simp [Lexeme.malformed?]
    | bare text =>
      simp only [Lexeme.malformed?, Option.ite_none_right_eq_some, Bool.and_eq_true,
        Option.isNone_iff_eq_none, Option.any_eq_true, Option.some.injEq, Lexeme.token.injEq,
        Token.bare.injEq, IsMalformed]
      constructor
      · rintro ⟨h_word, rfl⟩
        exact ⟨rfl, h_word⟩
      · rintro ⟨rfl, h_word⟩
        exact ⟨h_word, rfl⟩

theorem malformed?_eq_none_of_forall {lexemes : List Lexeme}
    (h_words : ∀ word, .token (.bare word) ∈ lexemes → ¬ IsMalformed word) :
    ∀ lexeme ∈ lexemes, lexeme.malformed? = none := by
  intro lexeme h_mem
  rw [Option.eq_none_iff_forall_ne_some]
  intro word h_some
  obtain ⟨rfl, h_word⟩ := malformed?_eq_some_iff.mp h_some
  exact h_words word h_mem h_word

theorem not_isMalformed_of_forall {lexemes : List Lexeme}
    (h_none : ∀ lexeme ∈ lexemes, lexeme.malformed? = none) (word : String)
    (h_mem : .token (.bare word) ∈ lexemes) : ¬ IsMalformed word := by
  intro h_word
  have h_some := malformed?_eq_some_iff.mpr ⟨rfl, h_word⟩
  rw [h_none _ h_mem] at h_some
  cases h_some

/-! ## Parsing a form -/

theorem parseProgram_of_scans {text : String} {form : Form} (h_node : form.IsNode)
    (h_text : Scans text.toList form.lexemes []) :
    parseProgram text = checked form.lexemes form.tree := by
  rw [parseProgram, SourceRule.read?_eq_some_iff.mpr ⟨h_node, h_text⟩]
  exact form.expression_eq_checked h_text.bare_ne_empty

theorem ParsesTo.parseProgram_eq {text : String} {result : Except ParseError Expression}
    (h_parses : ParsesTo text result) : parseProgram text = result := by
  cases h_parses with
  | breaksOff h_text => rw [parseProgram, Form.read?, scan?_of_breaksOff h_text, Option.bind_none]
  | @notAForm lexemes h_text h_form =>
    have h_unread : Form.ofLexemes? lexemes = none := by
      rw [Option.eq_none_iff_forall_ne_some]
      intro form h_read
      obtain ⟨⟨head, items, rfl⟩, h_lexemes⟩ := Form.ofLexemes?_eq_some_iff.mp h_read
      exact h_form head items h_lexemes
    rw [parseProgram, Form.read?, scan?_of_scans h_text, Option.bind_some, h_unread]
  | @malformed head items before word after h_text h_lexemes h_word h_before =>
    -- the first malformed word among the lexemes is the one that is reported
    have h_first : (Form.node head items).lexemes.findSome? Lexeme.malformed? = some word :=
      List.findSome?_eq_some_iff.mpr ⟨before, _, after, h_lexemes,
        malformed?_eq_some_iff.mpr ⟨rfl, h_word⟩, malformed?_eq_none_of_forall h_before⟩
    rw [parseProgram_of_scans ⟨head, items, rfl⟩ h_text, checked, h_first]
  | @tree head items h_text h_words =>
    have h_none : (Form.node head items).lexemes.findSome? Lexeme.malformed? = none :=
      List.findSome?_eq_none_iff.mpr (malformed?_eq_none_of_forall h_words)
    rw [parseProgram_of_scans ⟨head, items, rfl⟩ h_text, checked, h_none]

theorem parsesTo_parseProgram (text : String) : ParsesTo text (parseProgram text) := by
  rcases scans_or_breaksOff text.toList with ⟨lexemes, h_text⟩ | h_broken
  -- each of the four ways is the only one for its texts
  case inr =>
    have h_parses := ParsesTo.breaksOff h_broken
    rwa [h_parses.parseProgram_eq]
  by_cases h_form : ∃ head items, (Form.node head items).lexemes = lexemes
  case neg =>
    have h_parses := ParsesTo.notAForm h_text fun head items h_same => h_form ⟨head, items, h_same⟩
    rwa [h_parses.parseProgram_eq]
  obtain ⟨head, items, rfl⟩ := h_form
  rcases h_first : (Form.node head items).lexemes.findSome? Lexeme.malformed? with _ | word
  · have h_parses := ParsesTo.tree h_text
      (not_isMalformed_of_forall (List.findSome?_eq_none_iff.mp h_first))
    rwa [h_parses.parseProgram_eq]
  · obtain ⟨before, lexeme, after, h_lexemes, h_some, h_before⟩ :=
      List.findSome?_eq_some_iff.mp h_first
    obtain ⟨rfl, h_word⟩ := malformed?_eq_some_iff.mp h_some
    have h_parses := ParsesTo.malformed h_text h_lexemes h_word (not_isMalformed_of_forall h_before)
    rwa [h_parses.parseProgram_eq]

/-- A text is a program just where its lexemes are those of a form that has a tree. -/
theorem parseProgram_eq_ok_iff {text : String} {program : Expression} :
    parseProgram text = .ok program ↔ ∃ form : Form, form.IsNode ∧ Scans text.toList form.lexemes [] ∧
      form.expression = .ok program := by
  rw [parseProgram]
  constructor
  · intro h_parse
    rcases h_read : Form.read? text with _ | form
    · rw [h_read] at h_parse
      cases h_parse
    · rw [h_read] at h_parse
      obtain ⟨h_node, h_text⟩ := SourceRule.read?_eq_some_iff.mp h_read
      exact ⟨form, h_node, h_text, h_parse⟩
  · rintro ⟨form, h_node, h_text, h_tree⟩
    rw [SourceRule.read?_eq_some_iff.mpr ⟨h_node, h_text⟩]
    exact h_tree

/-! ## Every text -/

theorem Form.trees_eq_map (items : List Form) : trees items = items.map tree := by
  induction items with
  | nil => rfl
  | cons form rest ih => rw [trees, ih, List.map_cons]

/-- Parsing comes to what the lexemes of the text say, and to what the grammar says. No two forms
have the same lexemes. The tree of a form has its head and the trees of its items in order and no
properties, and a token has the same tree with and without parentheses around it. -/
theorem parseProgram_agrees :
    (∀ text result, parseProgram text = result ↔ ParsesTo text result) ∧
      (∀ text result, parseProgram text = result ↔
        ∃ outcome, SourceRule.Parses text.toList (.rule .program) text.toList outcome ∧
          SourceRule.programOf outcome = result) ∧
      Function.Injective Form.lexemes ∧
      (∀ head items, (Form.node head items).tree
        = { head := .ofToken head, tail := items.map Form.tree, properties := ∅ }) ∧
      ∀ token, (Form.leaf token).tree = (Form.node token []).tree := by
  refine ⟨fun text result => ⟨?_, ParsesTo.parseProgram_eq⟩, fun text result => ?_,
    Form.lexemes_injective, fun head items => ?_, fun token => rfl⟩
  · rintro rfl
    exact parsesTo_parseProgram text
  · obtain ⟨outcome, h_outcome, h_program⟩ := SourceRule.exists_program text
    constructor
    · rintro rfl
      exact ⟨outcome, h_outcome, h_program⟩
    · rintro ⟨other, h_other, rfl⟩
      rw [← h_program, h_outcome.unique h_other]
  · rw [Form.tree, Form.trees_eq_map]

/-- A text that is no form is nothing else, even where a malformed number comes first. -/
example : parseProgram "(1x \"" = .error .notAForm := rfl

example : parseProgram "(1x)" = .error (.malformedNumber "1x") := rfl

end PlotLisp
