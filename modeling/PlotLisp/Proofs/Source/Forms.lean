import PlotLisp.Source.Program

/-!
# Forms and their lexemes

A form can be written out again: `Form.lexemes` gives its parentheses and tokens in order. Reading
undoes that, so a row of lexemes is one form or none, and never two.

The tree of a form is its head and the trees of its items, unless one of its tokens is a malformed
number. Then the first of those is the error, however deep it stands.
-/

namespace PlotLisp

namespace Form

/-- What holds of every token, and of a form if it holds of its items, holds of all forms. -/
theorem induction {motive : Form → Prop} (leaf : ∀ token, motive (.leaf token))
    (node : ∀ head items, (∀ item ∈ items, motive item) → motive (.node head items)) (form : Form) :
    motive form :=
  @Form.rec motive (fun items => ∀ item ∈ items, motive item) leaf node nofun
    (fun _ _ h_item h_items => List.forall_mem_cons.mpr ⟨h_item, h_items⟩) form

/-! ## Writing forms out -/

mutual

/-- The lexemes of a form, in order. -/
def lexemes : Form → List Lexeme
  | .leaf token => [.token token]
  | .node head items => .opening :: .token head :: (lexemesOf items ++ [.closing])

def lexemesOf : List Form → List Lexeme
  | [] => []
  | form :: rest => form.lexemes ++ lexemesOf rest

end

/-! ## Reading forms -/

/-- The form stands in parentheses. -/
def IsNode (form : Form) : Prop := ∃ head items, form = .node head items

/-- What has been read of a form that is still open. -/
def Unclosed.lexemes (f : Unclosed) : List Lexeme :=
  .opening :: .token f.head :: lexemesOf f.items.reverse

theorem lexemesOf_append (items others : List Form) :
    lexemesOf (items ++ others) = lexemesOf items ++ lexemesOf others := by
  induction items with
  | nil => rfl
  | cons item items ih => rw [List.cons_append, lexemesOf, lexemesOf, ih, List.append_assoc]

theorem Unclosed.lexemes_push (f : Unclosed) (item : Form) :
    (f.push item).lexemes = f.lexemes ++ item.lexemes := by
  simp only [Unclosed.lexemes, Unclosed.push, List.reverse_cons, lexemesOf_append, lexemesOf,
    List.append_nil, List.cons_append]

theorem Unclosed.lexemes_close (f : Unclosed) : f.close.lexemes = f.lexemes ++ [.closing] := by
  rw [Unclosed.close, Form.lexemes, Unclosed.lexemes]
  rfl

/-- What has been read of all forms that are still open, of which the innermost is the first. -/
def stackLexemes (stack : List Unclosed) : List Lexeme := stack.reverse.flatMap Unclosed.lexemes

theorem stackLexemes_cons (f : Unclosed) (stack : List Unclosed) :
    stackLexemes (f :: stack) = stackLexemes stack ++ f.lexemes := by
  simp [stackLexemes]

/-- The form that is read in the end is what was read before, and then the rest. -/
theorem lexemes_of_readOn {stack : List Unclosed} {rest : List Lexeme} {form : Form}
    (h_read : readOn stack rest = some form) :
    form.IsNode ∧ form.lexemes = stackLexemes stack ++ rest := by
  -- in each case the lexeme goes from the rest to the stack, and all lexemes stay in order
  fun_induction readOn stack rest with
  | case1 stack head rest ih =>
    obtain ⟨h_node, h_lexemes⟩ := ih h_read
    refine ⟨h_node, ?_⟩
    rw [h_lexemes, stackLexemes_cons, List.append_assoc]
    rfl
  | case2 inner stack token rest ih =>
    obtain ⟨h_node, h_lexemes⟩ := ih h_read
    refine ⟨h_node, ?_⟩
    rw [h_lexemes, stackLexemes_cons, stackLexemes_cons, Unclosed.lexemes_push]
    simp only [List.append_assoc, lexemes, List.singleton_append]
  | case3 inner outer stack rest ih =>
    obtain ⟨h_node, h_lexemes⟩ := ih h_read
    refine ⟨h_node, ?_⟩
    rw [h_lexemes, stackLexemes_cons, stackLexemes_cons, stackLexemes_cons, Unclosed.lexemes_push,
      Unclosed.lexemes_close]
    simp only [List.append_assoc, List.singleton_append]
  | case4 last =>
    cases h_read
    refine ⟨⟨_, _, rfl⟩, ?_⟩
    rw [Unclosed.lexemes_close, stackLexemes_cons]
    rfl
  | case5 => cases h_read

/-- Reading takes a whole item and puts it behind the others of the innermost form. -/
def IsTaken (item : Form) : Prop :=
  ∀ inner stack rest,
    readOn (inner :: stack) (item.lexemes ++ rest) = readOn (inner.push item :: stack) rest

theorem readOn_lexemesOf {items : List Form} (h_items : ∀ item ∈ items, item.IsTaken)
    (inner : Unclosed) (stack : List Unclosed) (rest : List Lexeme) :
    readOn (inner :: stack) (lexemesOf items ++ rest)
      = readOn ({ inner with items := items.reverse ++ inner.items } :: stack) rest := by
  induction items generalizing inner with
  | nil => rfl
  | cons item items ih =>
    obtain ⟨h_item, h_rest⟩ := List.forall_mem_cons.mp h_items
    rw [lexemesOf, List.append_assoc, h_item, ih h_rest, Unclosed.push, List.reverse_cons,
      List.append_assoc]
    rfl

theorem isTaken (item : Form) : item.IsTaken := by
  induction item using Form.induction with
  | leaf token => exact fun _ _ _ => rfl
  | node head items ih =>
    intro inner stack rest
    -- the parentheses of the form put it on the stack and take it off again
    have h_opened : readOn (inner :: stack) ((node head items).lexemes ++ rest)
        = readOn ({ head } :: inner :: stack) (lexemesOf items ++ .closing :: rest) := by
      simp only [lexemes, List.cons_append, List.append_assoc, List.nil_append, readOn]
    rw [h_opened, readOn_lexemesOf ih, readOn, List.append_nil]
    simp only [Unclosed.close, List.reverse_reverse]

/-- A row of lexemes is a form just where it is the form written out. -/
theorem ofLexemes?_eq_some_iff {row : List Lexeme} {form : Form} :
    ofLexemes? row = some form ↔ form.IsNode ∧ form.lexemes = row := by
  constructor
  · exact lexemes_of_readOn
  · rintro ⟨⟨head, items, rfl⟩, rfl⟩
    rw [ofLexemes?, lexemes, readOn, readOn_lexemesOf fun item _ => item.isTaken, readOn,
      Unclosed.close, List.append_nil, List.reverse_reverse]

/-- No two forms have the same lexemes. -/
theorem lexemes_injective : Function.Injective lexemes := by
  rintro (token | ⟨head, items⟩) (token' | ⟨head', items'⟩) h_same
  · cases h_same
    rfl
  · cases h_same
  · cases h_same
  · have h_read := ofLexemes?_eq_some_iff.mpr ⟨⟨head, items, rfl⟩, h_same⟩
    rw [ofLexemes?_eq_some_iff.mpr ⟨⟨head', items', rfl⟩, rfl⟩] at h_read
    exact (Option.some.inj h_read).symm

/-! ## Trees of forms -/

mutual

/-- The tree of a form, whose tokens are taken for what they are. -/
def tree : Form → Expression
  | .leaf token => ⟨.ofToken token, [], ∅⟩
  | .node head items => ⟨.ofToken head, trees items, ∅⟩

def trees : List Form → List Expression
  | [] => []
  | form :: rest => form.tree :: trees rest

end

end Form

/-- The word of a lexeme that begins with a digit and is no number. -/
def Lexeme.malformed? : Lexeme → Option String
  | .token (.bare word) =>
    if word.toList.head?.any Char.isDigit && (numberOfWord? word).isNone then some word else none
  | _ => none

/-- A value, unless one of the lexemes is a malformed number. The first of those is the error. -/
def checked {α : Type} (lexemes : List Lexeme) (value : α) : Except ParseError α :=
  match lexemes.findSome? Lexeme.malformed? with
  | some word => .error (.malformedNumber word)
  | none => .ok value

theorem checked_append {α β γ : Type} (first second : List Lexeme) (a : α) (b : β) (f : α → β → γ) :
    checked (first ++ second) (f a b) = do
      let a ← checked first a
      let b ← checked second b
      return f a b := by
  unfold checked
  rw [List.findSome?_append]
  cases first.findSome? Lexeme.malformed? with
  | some word => rfl
  | none =>
    cases second.findSome? Lexeme.malformed? with
    | some word => rfl
    | none => rfl

theorem ofName_ne_nothing (name : String) : Atom.ofName name ≠ .nothing := by
  unfold Atom.ofName
  split
  · exact nofun
  · split <;> exact nofun

/-- A token is taken for what it is, unless it is a malformed number. -/
theorem Token.atom_eq_checked {token : Token} (h_token : token ≠ .bare "") :
    token.atom = checked [.token token] (Atom.ofToken token) := by
  cases token with
  | quoted text => rfl
  | bare text =>
    have h_letters : text.toList ≠ [] := fun h_nil =>
      h_token (congrArg Token.bare (String.toList_eq_nil_iff.mp h_nil))
    obtain ⟨c, letters, h_text⟩ := List.exists_cons_of_ne_nil h_letters
    have h_malformed : Lexeme.malformed? (.token (.bare text))
        = if c.isDigit && (numberOfWord? text).isNone then some text else none := by
      rw [Lexeme.malformed?, h_text]
      rfl
    rw [checked, List.findSome?_singleton, h_malformed]
    cases h_number : numberOfWord? text with
    | some value => simp [Token.atom, Atom.ofToken, h_number]
    | none =>
      by_cases h_digit : c.isDigit = true
      · simp [Token.atom, Atom.ofToken, h_number, h_text, h_digit, Token.source]
      · have h_name := ofName_ne_nothing text
        simp [Token.atom, Atom.ofToken, h_number, h_text, h_digit]

/-! ## Trees and faults -/

mutual

/-- A form has its tree, unless one of its tokens is a malformed number. -/
theorem Form.expression_eq_checked (form : Form) (h_words : .token (.bare "") ∉ form.lexemes) :
    form.expression = checked form.lexemes form.tree := by
  match form with
  | .leaf token =>
    have h_token : token ≠ .bare "" := fun h_empty => h_words (by simp [lexemes, h_empty])
    rw [expression, Token.atom_eq_checked h_token, lexemes]
    unfold checked
    cases [Lexeme.token token].findSome? Lexeme.malformed? <;> rfl
  | .node head items =>
    simp only [lexemes, List.mem_cons, List.mem_append, not_or] at h_words
    obtain ⟨-, h_head, h_items, -⟩ := h_words
    have h_token : head ≠ .bare "" := fun h_empty => h_head (by rw [h_empty])
    -- the parentheses are no tokens, so that there is nothing wrong with them
    have h_row : checked (node head items).lexemes (node head items).tree
        = checked ([.token head] ++ lexemesOf items) (node head items).tree := by
      simp [checked, lexemes, List.findSome?_append, List.findSome?_cons, Lexeme.malformed?]
    rw [h_row, tree, expression, Token.atom_eq_checked h_token,
      Form.expressions_eq_checked items h_items]
    exact (checked_append _ _ _ _ fun head tail => ({ head, tail } : Expression)).symm

theorem Form.expressions_eq_checked (items : List Form)
    (h_words : .token (.bare "") ∉ lexemesOf items) :
    expressions items = checked (lexemesOf items) (trees items) := by
  match items with
  | [] => rfl
  | form :: rest =>
    simp only [lexemesOf, List.mem_append, not_or] at h_words
    rw [expressions, Form.expression_eq_checked form h_words.1,
      Form.expressions_eq_checked rest h_words.2, lexemesOf, trees, checked_append]

end

end PlotLisp
