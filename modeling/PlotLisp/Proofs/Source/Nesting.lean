import PlotLisp.Proofs.Source.Grammar

/-!
# Nested forms in the grammar

How the rule for forms fares on a text, by induction on the nesting. Where it matches, the text that
it matched is that of a form, whose lexemes are read on the way, and the pairs have its tree:
`exists_form`. Where there is a form to be read, it matches: `form_of_scans`. So the grammar finds a
program just where the lexemes of a text are one form.
-/

namespace PlotLisp

namespace SourceRule

open Peg

/-! ## Trees of pairs -/

/-- The token of a string or a symbol. A string has its quotes around it. -/
def tokenOf : Pair SourceRule → Token
  | .mk string text _ => .quoted (String.ofList text.tail.dropLast)
  | .mk _ text _ => .bare (String.ofList text)

mutual

/-- The tree of a form or an atom, its faults sought in the order of the text. -/
def treeOf : Pair SourceRule → Except ParseError Expression
  | .mk form _ inner => treeOfParts inner
  | pair => do
    let atom ← (tokenOf pair).atom
    return .ofAtom atom

/-- The tree of the parts of a form: the first is the head, and the others are the items. -/
def treeOfParts : List (Pair SourceRule) → Except ParseError Expression
  | [] => .ok .nothing
  | head :: items => do
    let atom ← (tokenOf head).atom
    let tail ← treesOf items
    return { head := atom, tail }

def treesOf : List (Pair SourceRule) → Except ParseError (List Expression)
  | [] => .ok []
  | pair :: rest => do
    let first ← treeOf pair
    let others ← treesOf rest
    return first :: others

end

theorem tokenOf_tokenPair (token : Token) : tokenOf (tokenPair token) = token := by
  cases token with
  | bare text => exact congrArg Token.bare String.ofList_toList
  | quoted text =>
    rw [tokenPair, tokenOf, List.tail_cons, List.dropLast_concat, String.ofList_toList]

theorem treeOf_tokenPair (token : Token) : treeOf (tokenPair token) = (Form.leaf token).expression := by
  have h_token := tokenOf_tokenPair token
  cases token <;> simp only [tokenPair, treeOf, Form.expression] at h_token ⊢ <;> rw [h_token]

section Parses

variable {whole : List Char}

/-! ## What a form is made of -/

def item : Peg SourceRule := choice (rule form) (rule atom)

/-- The items behind the first, each with something between it and the one before. -/
def moreItems : Peg SourceRule := star (seq between item)

theorem expansion_form : grammar.expansion form
    = seq (literal '(') (seq between (seq (rule atom) (seq between
        (seq (optional (seq item moreItems)) (seq between (literal ')')))))) := rfl

theorem form_fails {text : List Char} (h_text : ∀ c ∈ text.head?, c ≠ '(') :
    Parses whole (.rule form) text none := by
  have h_body : Parses whole (grammar.expansion form) text none :=
    .seqFails ((ActsAs.literal '(').fails (by simpa using h_text))
  exact .ruleFails h_body

/-- Wherever an item is looked for, a form or atom with its tree is found, or nothing. -/
def Settles (whole : List Char) (e : Peg SourceRule) (allowed : Form → Prop) (text : List Char) :
    Prop :=
  (∃ pair found rest, Parses whole e text (some ([pair], rest)) ∧ allowed found ∧
    treeOf pair = found.expression ∧ Scans text found.lexemes rest ∧ rest.length < text.length) ∨
  Parses whole e text none

theorem settles_item {text : List Char} (h_form : Settles whole (.rule form) Form.IsNode text) :
    Settles whole item (fun _ => True) text := by
  rcases h_form with ⟨pair, found, rest, h_form, -, h_tree, h_scans, h_less⟩ | h_no_form
  · exact .inl ⟨pair, found, rest, .choice h_form, trivial, h_tree, h_scans, h_less⟩
  rcases exists_atom whole text with ⟨token, rest, h_atom, h_scans, h_less⟩ | h_no_atom
  · exact .inl ⟨tokenPair token, .leaf token, rest, .choiceOther h_no_form h_atom, trivial,
      treeOf_tokenPair token, h_scans, h_less⟩
  · exact .inr (.choiceOther h_no_form h_no_atom)

/-- Items are found one after another, as long as there is one. -/
theorem exists_moreItems (text : List Char)
    (h_items : ∀ later : List Char, later.length ≤ text.length →
      Settles whole item (fun _ => True) later) :
    ∃ pairs items rest, Parses whole moreItems text (some (pairs, rest)) ∧
      treesOf pairs = Form.expressions items ∧ Scans text (Form.lexemesOf items) rest ∧
      rest.length ≤ text.length := by
  induction h_length : text.length using Nat.strong_induction_on generalizing text with
  | _ length ih =>
    obtain ⟨middle, h_between, h_passed, -, h_shorter⟩ := exists_between whole text
    rcases h_items middle h_shorter with
      ⟨pair, found, after, h_item, -, h_tree, h_scans, h_less⟩ | h_no_item
    · have h_after : after.length < length := by omega
      have h_later (later : List Char) (h_le : later.length ≤ after.length) :
          Settles whole item (fun _ => True) later := h_items later (by omega)
      obtain ⟨pairs, items, rest, h_more, h_trees, h_rest, h_end⟩ := ih _ h_after after h_later rfl
      refine ⟨pair :: pairs, found :: items, rest, .star (h_between.seq h_item) h_more, ?_, ?_,
        by omega⟩
      · rw [treesOf, Form.expressions, h_tree, h_trees]
      · exact (h_passed.append h_scans).append h_rest
    · exact ⟨[], [], text, .starDone (h_between.seq h_no_item), rfl, .done, Nat.le_of_eq h_length⟩

/-- The first item is looked for where the others are, but once there is none, the search is over. -/
theorem exists_items (text : List Char)
    (h_items : ∀ later : List Char, later.length ≤ text.length →
      Settles whole item (fun _ => True) later) :
    ∃ pairs items rest, Parses whole (optional (seq item moreItems)) text (some (pairs, rest)) ∧
      treesOf pairs = Form.expressions items ∧ Scans text (Form.lexemesOf items) rest ∧
      rest.length ≤ text.length := by
  rcases h_items text (Nat.le_refl _) with
    ⟨pair, found, after, h_item, -, h_tree, h_scans, h_less⟩ | h_no_item
  · obtain ⟨pairs, items, rest, h_more, h_trees, h_rest, h_end⟩ :=
      exists_moreItems after fun later h_le => h_items later (by omega)
    refine ⟨pair :: pairs, found :: items, rest, .optional (h_item.seq h_more), ?_,
      h_scans.append h_rest, by omega⟩
    rw [treesOf, Form.expressions, h_tree, h_trees]
  · exact ⟨[], [], text, .optional (.seqFails h_no_item), rfl, .done, Nat.le_refl _⟩

/-- Where the parts of a form match, the form does, and its tree is made of theirs. -/
theorem form_of_parts {text rest : List Char} {head : Token} {pairs : List (Pair SourceRule)}
    {items : List Form}
    (h_body : Parses whole (grammar.expansion form) text (some (tokenPair head :: pairs, rest)))
    (h_trees : treesOf pairs = Form.expressions items)
    (h_scans : Scans text (Form.node head items).lexemes rest) :
    ∃ pair, Parses whole (.rule form) text (some ([pair], rest)) ∧
      treeOf pair = (Form.node head items).expression := by
  obtain ⟨letters, rfl⟩ := h_scans.exists_read
  refine ⟨.mk form letters (tokenPair head :: pairs), Matches.loud rfl h_body, ?_⟩
  rw [treeOf, treeOfParts, tokenOf_tokenPair, Form.expression, h_trees]

/-- Wherever a form is looked for, one with its tree is found, or nothing. -/
theorem exists_form (whole text : List Char) : Settles whole (.rule form) Form.IsNode text := by
  induction h_length : text.length using Nat.strong_induction_on generalizing text with
  | _ length ih =>
    by_cases h_begins : text.head? = some '('
    case neg => exact .inr (form_fails fun c h_c h_eq => h_begins (h_eq ▸ h_c))
    obtain ⟨after, rfl⟩ := List.head?_eq_some_iff.mp h_begins
    rw [List.length_cons] at h_length
    have h_open : Parses whole (.literal '(') _ _ := parses_literal '(' after
    -- behind the parenthesis there has to be a head
    obtain ⟨beforeHead, h_first, h_passed₁, -, h_le₁⟩ := exists_between whole after
    rcases exists_atom whole beforeHead with ⟨head, afterHead, h_head, h_token, h_less⟩ | h_no_head
    case inr =>
      have h_body : Parses whole (grammar.expansion form) ('(' :: after) none :=
        h_open.seq (h_first.seq (.seqFails h_no_head))
      exact .inr (.ruleFails h_body)
    -- the items are looked for in a shorter text, and there may be none
    obtain ⟨beforeItems, h_second, h_passed₂, -, h_le₂⟩ := exists_between whole afterHead
    have h_items (later : List Char) (h_later : later.length ≤ beforeItems.length) :
        Settles whole item (fun _ => True) later :=
      settles_item (ih later.length (by omega) later rfl)
    obtain ⟨pairs, items, afterItems, h_found, h_trees, h_rest, h_le₃⟩ :=
      exists_items beforeItems h_items
    -- and behind them there has to be the other parenthesis
    obtain ⟨atEnd, h_third, h_passed₃, -, h_le₄⟩ := exists_between whole afterItems
    by_cases h_ends : atEnd.head? = some ')'
    case neg =>
      have h_no_close : Parses whole (.literal ')') atEnd none := by
        refine (ActsAs.literal ')').fails ?_
        intro c h_c
        have h_ne : c ≠ ')' := fun h_eq => h_ends (h_eq ▸ h_c)
        simpa using h_ne
      have h_body : Parses whole (grammar.expansion form) ('(' :: after) none :=
        h_open.seq (h_first.seq (h_head.seq (h_second.seq (h_found.seq (h_third.seq h_no_close)))))
      exact .inr (.ruleFails h_body)
    obtain ⟨rest, rfl⟩ := List.head?_eq_some_iff.mp h_ends
    have h_body : Parses whole (grammar.expansion form) ('(' :: after)
        (some (tokenPair head :: pairs, rest)) := by
      have h_parts := h_open.seq (h_first.seq (h_head.seq (h_second.seq (h_found.seq
        (h_third.seq (parses_literal ')' rest))))))
      rw [expansion_form]
      simpa using h_parts
    have h_scans : Scans ('(' :: after) (Form.node head items).lexemes rest := by
      have h_tail := (h_passed₂.append h_rest).append (h_passed₃.append (.closing .done))
      exact .opening ((h_passed₁.append h_token).append h_tail)
    obtain ⟨pair, h_form, h_tree⟩ := form_of_parts h_body h_trees h_scans
    refine .inl ⟨pair, .node head items, rest, h_form, ⟨head, items, rfl⟩, h_tree, h_scans, ?_⟩
    rw [List.length_cons] at h_le₄ ⊢
    omega

/-! ## Forms that are there to be read -/

/-- Where nothing is passed over, a parenthesis that is read first stands first. -/
theorem opening_of_scans {text : List Char} {lexemes : List Lexeme} (h_clean : IsClean text)
    (h_text : Scans text (.opening :: lexemes) []) :
    ∃ after, text = '(' :: after ∧ Scans after lexemes [] := by
  cases h_text with
  | blank h_blank => exact absurd h_blank (by simp [(h_clean _ rfl).1])
  | comment => exact absurd rfl (h_clean _ rfl).2
  | opening h_after => exact ⟨_, rfl, h_after⟩

theorem closing_of_scans {text : List Char} {lexemes : List Lexeme} (h_clean : IsClean text)
    (h_text : Scans text (.closing :: lexemes) []) :
    ∃ after, text = ')' :: after ∧ Scans after lexemes [] := by
  cases h_text with
  | blank h_blank => exact absurd h_blank (by simp [(h_clean _ rfl).1])
  | comment => exact absurd rfl (h_clean _ rfl).2
  | closing h_after => exact ⟨_, rfl, h_after⟩

theorem eq_nil_of_scans {text : List Char} (h_clean : IsClean text) (h_text : Scans text [] []) :
    text = [] := by
  cases h_text with
  | done => rfl
  | blank h_blank => exact absurd h_blank (by simp [(h_clean _ rfl).1])
  | comment => exact absurd rfl (h_clean _ rfl).2

/-- A token that is read first is an atom. -/
theorem atom_of_scans (whole : List Char) {text : List Char} {token : Token} {lexemes : List Lexeme}
    (h_clean : IsClean text) (h_text : Scans text (.token token :: lexemes) []) :
    ∃ rest, Parses whole (.rule atom) text (some ([tokenPair token], rest)) ∧
      Scans rest lexemes [] := by
  cases h_text with
  | blank h_blank => exact absurd h_blank (by simp [(h_clean _ rfl).1])
  | comment => exact absurd rfl (h_clean _ rfl).2
  | quoted h_letters h_after => exact ⟨_, parses_string h_letters, h_after⟩
  | bare h_some h_letters h_end h_after => exact ⟨_, parses_symbol h_some h_letters h_end, h_after⟩

/-- What may be passed over is passed over, and the same lexemes are there to be read. -/
theorem between_of_scans (whole : List Char) {text : List Char} {lexemes : List Lexeme}
    (h_text : Scans text lexemes []) :
    ∃ rest, Parses whole between text (some ([], rest)) ∧ IsClean rest ∧ Scans rest lexemes [] := by
  obtain ⟨rest, h_between, h_passed, h_clean, -⟩ := exists_between whole text
  exact ⟨rest, h_between, h_clean, h_passed.of_passed h_text⟩

/-- The item matches wherever its lexemes are read first. -/
def IsFound (whole : List Char) (found : Form) : Prop :=
  ∀ text lexemes, IsClean text → Scans text (found.lexemes ++ lexemes) [] →
    ∃ pair rest, Parses whole item text (some ([pair], rest)) ∧ Scans rest lexemes []

theorem item_fails_at_closing (text : List Char) : Parses whole item (')' :: text) none :=
  .choiceOther (form_fails (by simp)) (atom_fails (by simp) (by rintro _ ⟨⟩; rfl))

theorem moreItems_of_scans {items : List Form} (h_items : ∀ found ∈ items, IsFound whole found)
    {text : List Char} {lexemes : List Lexeme}
    (h_text : Scans text (Form.lexemesOf items ++ .closing :: lexemes) []) :
    ∃ pairs rest, Parses whole moreItems text (some (pairs, rest)) ∧
      Scans rest (.closing :: lexemes) [] := by
  induction items generalizing text with
  | nil =>
    obtain ⟨middle, h_between, h_clean, h_middle⟩ := between_of_scans whole h_text
    -- the parenthesis ends the search, and what was passed over before it is given back
    obtain ⟨after, rfl, -⟩ := closing_of_scans h_clean h_middle
    exact ⟨[], text, .starDone (h_between.seq (item_fails_at_closing after)), h_text⟩
  | cons found items ih =>
    obtain ⟨h_found, h_later⟩ := List.forall_mem_cons.mp h_items
    obtain ⟨middle, h_between, h_clean, h_middle⟩ := between_of_scans whole h_text
    rw [Form.lexemesOf, List.append_assoc] at h_middle
    obtain ⟨pair, after, h_item, h_after⟩ := h_found middle _ h_clean h_middle
    obtain ⟨pairs, rest, h_more, h_rest⟩ := ih h_later h_after
    exact ⟨pair :: pairs, rest, .star (h_between.seq h_item) h_more, h_rest⟩

theorem items_of_scans {items : List Form} (h_items : ∀ found ∈ items, IsFound whole found)
    {text : List Char} {lexemes : List Lexeme} (h_clean : IsClean text)
    (h_text : Scans text (Form.lexemesOf items ++ .closing :: lexemes) []) :
    ∃ pairs rest, Parses whole (optional (seq item moreItems)) text (some (pairs, rest)) ∧
      Scans rest (.closing :: lexemes) [] := by
  rcases items with _ | ⟨found, items⟩
  · obtain ⟨after, rfl, -⟩ := closing_of_scans h_clean h_text
    exact ⟨[], _, .optional (.seqFails (item_fails_at_closing after)), h_text⟩
  · obtain ⟨h_found, h_later⟩ := List.forall_mem_cons.mp h_items
    rw [Form.lexemesOf, List.append_assoc] at h_text
    obtain ⟨pair, after, h_item, h_after⟩ := h_found text _ h_clean h_text
    obtain ⟨pairs, rest, h_more, h_rest⟩ := moreItems_of_scans h_later h_after
    exact ⟨pair :: pairs, rest, .optional (h_item.seq h_more), h_rest⟩

theorem form_of_scans {head : Token} {items : List Form}
    (h_items : ∀ found ∈ items, IsFound whole found) {text : List Char} {lexemes : List Lexeme}
    (h_clean : IsClean text) (h_text : Scans text ((Form.node head items).lexemes ++ lexemes) []) :
    ∃ pair rest, Parses whole (.rule form) text (some ([pair], rest)) ∧ Scans rest lexemes [] := by
  simp only [Form.lexemes, List.cons_append, List.append_assoc, List.nil_append] at h_text
  obtain ⟨after, rfl, h_after⟩ := opening_of_scans h_clean h_text
  obtain ⟨beforeHead, h_first, h_clean₁, h_scans₁⟩ := between_of_scans whole h_after
  obtain ⟨afterHead, h_head, h_scans₂⟩ := atom_of_scans whole h_clean₁ h_scans₁
  obtain ⟨beforeItems, h_second, h_clean₃, h_scans₃⟩ := between_of_scans whole h_scans₂
  obtain ⟨pairs, afterItems, h_found, h_scans₄⟩ := items_of_scans h_items h_clean₃ h_scans₃
  obtain ⟨atEnd, h_third, h_clean₅, h_scans₅⟩ := between_of_scans whole h_scans₄
  obtain ⟨rest, rfl, h_rest⟩ := closing_of_scans h_clean₅ h_scans₅
  have h_body : Parses whole (grammar.expansion form) ('(' :: after) (some (_, rest)) :=
    (parses_literal '(' after).seq (h_first.seq (h_head.seq (h_second.seq (h_found.seq
      (h_third.seq (parses_literal ')' rest))))))
  exact ⟨_, rest, .rule h_body, h_rest⟩

/-- Every form and every token is found wherever its lexemes are read first. -/
theorem isFound (whole : List Char) (found : Form) : IsFound whole found := by
  induction found using Form.induction with
  | leaf token =>
    intro text lexemes h_clean h_text
    obtain ⟨rest, h_atom, h_rest⟩ := atom_of_scans whole h_clean h_text
    refine ⟨_, rest, .choiceOther (form_fails ?_) h_atom, h_rest⟩
    -- a parenthesis would have been read first
    rintro c h_c rfl
    obtain ⟨after, rfl⟩ := List.head?_eq_some_iff.mp h_c
    obtain ⟨others, h_others, -⟩ := (Scans.opening .done).exists_rest h_text
    cases h_others
  | node head items ih =>
    intro text lexemes h_clean h_text
    obtain ⟨pair, rest, h_form, h_rest⟩ := form_of_scans ih h_clean h_text
    exact ⟨pair, rest, .choice h_form, h_rest⟩

/-! ## Whole programs -/

/-- What comes of the outcome of the rule for programs. -/
def programOf : Peg.Outcome SourceRule → Except ParseError Expression
  | some (.mk _ _ inner :: _, _) =>
    match inner.find? fun | .mk name _ _ => name = form with
    | some pair => treeOf pair
    | none => .error .notAForm
  | _ => .error .notAForm

/-- The pair of a form bears the name of the rule. -/
theorem exists_form_pair {text rest : List Char} {pair : Pair SourceRule}
    (h_form : Parses whole (.rule form) text (some ([pair], rest))) :
    ∃ letters inner, pair = .mk form letters inner := by
  generalize h_outcome : some ([pair], rest) = outcome at h_form
  cases h_form with
  | @rule _ _ matched h_body =>
    rcases matched with _ | ⟨pairs, after⟩
    · cases h_outcome
    · cases h_outcome
      exact ⟨_, _, rfl⟩

theorem read?_eq_some_iff {text : String} {found : Form} :
    Form.read? text = some found ↔ found.IsNode ∧ Scans text.toList found.lexemes [] := by
  rw [Form.read?, Option.bind_eq_some_iff]
  constructor
  · rintro ⟨row, h_scan, h_form⟩
    obtain ⟨h_node, rfl⟩ := Form.ofLexemes?_eq_some_iff.mp h_form
    exact ⟨h_node, scan?_eq_some_iff.mp h_scan⟩
  · rintro ⟨h_node, h_scans⟩
    exact ⟨_, scan?_eq_some_iff.mpr h_scans, Form.ofLexemes?_eq_some_iff.mpr ⟨h_node, rfl⟩⟩

/-- Where the text is a form, the rule for forms matches, and nothing is left behind it. -/
theorem form_of_read? {text : String} {found : Form} {beforeForm : List Char}
    (h_found : Form.read? text = some found) (h_passed : Scans text.toList [] beforeForm)
    (h_clean : IsClean beforeForm) :
    ∃ pair rest, Parses whole (.rule form) beforeForm (some ([pair], rest)) ∧ Scans rest [] [] := by
  obtain ⟨⟨head, items, rfl⟩, h_scans⟩ := read?_eq_some_iff.mp h_found
  have h_rest := h_passed.of_passed h_scans
  rw [← List.append_nil (Form.lexemes _)] at h_rest
  exact form_of_scans (fun found _ => isFound whole found) h_clean h_rest

theorem parseProgram_of_unread {text : String} (h_none : ∀ found, Form.read? text ≠ some found) :
    parseProgram text = .error .notAForm := by
  rw [parseProgram, Option.eq_none_iff_forall_ne_some.mpr h_none]

/-- The outcome of the grammar is the program of the text. -/
theorem exists_program (text : String) :
    ∃ outcome, Parses text.toList (.rule program) text.toList outcome ∧
      programOf outcome = parseProgram text := by
  have h_start : Parses text.toList start text.toList (some ([], text.toList)) := by
    have h_any : Parses text.toList start text.toList _ := .start
    rwa [if_pos rfl] at h_any
  obtain ⟨beforeForm, h_first, h_passed₁, h_clean₁, -⟩ := exists_between text.toList text.toList
  rcases exists_form text.toList beforeForm with
    ⟨pair, found, afterForm, h_form, h_node, h_tree, h_scans, -⟩ | h_no_form
  case inr =>
    have h_body : Parses text.toList (grammar.expansion program) text.toList none :=
      h_start.seq (h_first.seq (.seqFails h_no_form))
    refine ⟨none, .ruleFails h_body, (parseProgram_of_unread ?_).symm⟩
    intro other h_other
    obtain ⟨pair, rest, h_form, -⟩ := form_of_read? h_other h_passed₁ h_clean₁
    cases h_form.unique h_no_form
  obtain ⟨atEnd, h_second, h_passed₂, h_clean₂, -⟩ := exists_between text.toList afterForm
  rcases atEnd with _ | ⟨c, atEnd⟩
  · have h_finish : Parses text.toList (grammar.expansion endOfInput) [] (some ([], [])) := .finish
    have h_end : Parses text.toList (.rule endOfInput) [] (some ([.mk endOfInput [] []], [])) :=
      .rule h_finish
    have h_body : Parses text.toList (grammar.expansion program) text.toList
        (some ([pair, .mk endOfInput [] []], [])) :=
      h_start.seq (h_first.seq (h_form.seq (h_second.seq h_end)))
    have h_lexemes : Scans text.toList found.lexemes [] := by
      rw [← List.append_nil found.lexemes]
      exact h_passed₁.append (h_scans.append h_passed₂)
    refine ⟨_, .rule h_body, ?_⟩
    rw [parseProgram, read?_eq_some_iff.mpr ⟨h_node, h_lexemes⟩]
    obtain ⟨letters, inner, rfl⟩ := exists_form_pair h_form
    exact h_tree
  · -- something is left behind the form, which the form of the text would have left as well
    have h_finish : Parses text.toList (grammar.expansion endOfInput) (c :: atEnd) none := .finish
    have h_no_end : Parses text.toList (.rule endOfInput) (c :: atEnd) none := .ruleFails h_finish
    have h_body : Parses text.toList (grammar.expansion program) text.toList none :=
      h_start.seq (h_first.seq (h_form.seq (h_second.seq h_no_end)))
    refine ⟨none, .ruleFails h_body, (parseProgram_of_unread ?_).symm⟩
    intro other h_other
    obtain ⟨pair', rest, h_form', h_rest⟩ := form_of_read? h_other h_passed₁ h_clean₁
    cases h_form.unique h_form'
    cases eq_nil_of_scans h_clean₂ (h_passed₂.of_passed h_rest)

end Parses

end SourceRule

end PlotLisp
