import PlotLisp.Proofs.Source.Forms
import PlotLisp.Proofs.Source.Peg
import PlotLisp.Proofs.Source.Scanning

/-!
# The grammar of programs

A program as a grammar of parsing expressions sees it, without lexemes: blanks and comments may stand
between the parts of a form, and strings and symbols are atomic.

What the grammar matches is a form, with the lexemes that are read on the way, and it matches wherever
there is a form to be read. `ofPairs` makes a tree of the pairs.
-/

namespace PlotLisp

/-! ## The rules -/

inductive SourceRule where
  | whitespace
  | comment
  | program
  | form
  | atom
  | string
  | symbol
  | endOfInput
deriving DecidableEq

namespace SourceRule

open Peg

def blank : Peg SourceRule :=
  choice (choice (choice (literal ' ') (literal '\t')) (literal '\r')) (literal '\n')

/-- What ends a symbol. -/
def boundary : Peg SourceRule :=
  choice (choice (choice (choice blank (literal '(')) (literal ')')) (literal '"')) (literal ';')

def body : SourceRule → Peg SourceRule
  | whitespace => blank
  | comment => seq (literal ';') (star (anyBut (literal '\n')))
  | program => seq start (seq (rule form) (rule endOfInput))
  | form =>
    seq (literal '(')
      (seq (rule atom) (seq (star (choice (rule form) (rule atom))) (literal ')')))
  | atom => choice (rule string) (rule symbol)
  | string => seq (literal '"') (seq (star (anyBut (literal '"'))) (literal '"'))
  | symbol => seq (anyBut boundary) (star (anyBut boundary))
  | endOfInput => finish

/-- Blanks, and comments with blanks behind each. -/
def between : Peg SourceRule :=
  seq (star (rule whitespace)) (star (seq (rule comment) (star (rule whitespace))))

def grammar : Grammar SourceRule where
  body := body
  isSilent r := r = whitespace || r = comment || r = atom
  isAtomic r := r = whitespace || r = comment || r = string || r = symbol
  between := between

/-- Of some text that is left of a whole program, the grammar has this outcome. -/
abbrev Parses (whole : List Char) (e : Peg SourceRule) (text : List Char)
    (outcome : Peg.Outcome SourceRule) : Prop := Matches grammar whole e text outcome

section Parses

variable {whole : List Char}

/-! ## Characters -/

theorem blank_actsAs : ActsAs grammar whole blank isBlank :=
  ((((ActsAs.literal ' ').choice (.literal '\t')).choice (.literal '\r')).choice (.literal '\n'))

theorem boundary_actsAs : ActsAs grammar whole boundary endsWord :=
  (((blank_actsAs.choice (.literal '(')).choice (.literal ')')).choice (.literal '"')).choice
    (.literal ';')

theorem parses_literal (c : Char) (rest : List Char) :
    Parses whole (.literal c) (c :: rest) (some ([], rest)) :=
  (ActsAs.literal c).matches_cons (beq_self_eq_true c)

theorem whitespace_actsAs : ActsAs grammar whole (.rule whitespace) isBlank :=
  .rule blank_actsAs rfl

/-! ## Blanks and comments -/

/-- There is nothing at the beginning that may be passed over. -/
def IsClean (text : List Char) : Prop := ∀ c ∈ text.head?, isBlank c = false ∧ c ≠ ';'

theorem scans_blanks {letters : List Char} (h_letters : ∀ c ∈ letters, isBlank c = true)
    (rest : List Char) : Scans (letters ++ rest) [] rest := by
  induction letters with
  | nil => exact .done
  | cons c letters ih =>
    obtain ⟨h_c, h_rest⟩ := List.forall_mem_cons.mp h_letters
    exact .blank h_c (ih h_rest)

theorem exists_blanks (whole text : List Char) :
    ∃ rest, Parses whole (.star (.rule whitespace)) text (some ([], rest)) ∧ Scans text [] rest ∧
      (∀ c ∈ rest.head?, isBlank c = false) ∧ rest.length ≤ text.length := by
  obtain ⟨letters, rest, rfl, h_letters, h_end⟩ := exists_longest_run isBlank text
  refine ⟨rest, whitespace_actsAs.star h_letters h_end, scans_blanks h_letters rest, h_end, ?_⟩
  rw [List.length_append]
  omega

theorem parses_comment {letters rest : List Char} (h_letters : ∀ c ∈ letters, c ≠ '\n')
    (h_end : ∀ c ∈ rest.head?, c = '\n') :
    Parses whole (.rule comment) (';' :: (letters ++ rest)) (some ([], rest)) := by
  have h_rest : Parses whole (.star (.anyBut (.literal '\n'))) (letters ++ rest) (some ([], rest)) :=
    (ActsAs.literal '\n').anyBut.star (by simpa using h_letters) (by simpa using h_end)
  have h_body : Parses whole (grammar.expansion comment) (';' :: (letters ++ rest))
      (some ([], rest)) := (parses_literal ';' _).seq h_rest
  exact .silent rfl h_body

theorem comment_fails {text : List Char} (h_text : ∀ c ∈ text.head?, c ≠ ';') :
    Parses whole (.rule comment) text none := by
  have h_body : Parses whole (grammar.expansion comment) text none :=
    .seqFails ((ActsAs.literal ';').fails (by simpa using h_text))
  exact .ruleFails h_body

theorem exists_comments (whole text : List Char) (h_blank : ∀ c ∈ text.head?, isBlank c = false) :
    ∃ rest, Parses whole (.star (.seq (.rule comment) (.star (.rule whitespace)))) text
        (some ([], rest)) ∧
      Scans text [] rest ∧ IsClean rest ∧ rest.length ≤ text.length := by
  induction h_length : text.length using Nat.strong_induction_on generalizing text with
  | _ length ih =>
    by_cases h_comment : text.head? = some ';'
    · obtain ⟨after, rfl⟩ : ∃ after, text = ';' :: after := by
        rcases text with _ | ⟨c, after⟩
        · cases h_comment
        · cases h_comment
          exact ⟨after, rfl⟩
      obtain ⟨letters, middle, rfl, h_letters, h_end⟩ := exists_longest_run (· ≠ '\n') after
      simp only [ne_eq, decide_not, Bool.not_eq_true', decide_eq_false_iff_not, Bool.not_eq_false',
        decide_eq_true_eq] at h_letters h_end
      have h_first : Parses whole (.rule comment) _ _ := parses_comment h_letters h_end
      obtain ⟨next, h_blanks, h_passed, h_next, h_shorter⟩ := exists_blanks whole middle
      -- a comment and the blanks behind it leave a shorter text
      have h_less : next.length < length := by
        rw [← h_length, List.length_cons, List.length_append]
        omega
      obtain ⟨rest, h_more, h_scans, h_clean, h_rest⟩ := ih next.length h_less next h_next rfl
      refine ⟨rest, .star (h_first.seq h_blanks) h_more, ?_, h_clean, by omega⟩
      exact (Scans.comment h_letters h_end h_passed).append h_scans
    · refine ⟨text, .starDone (.seqFails (comment_fails ?_)), .done, ?_, Nat.le_of_eq h_length⟩
      · rintro c h_c rfl
        exact h_comment h_c
      · rintro c h_c
        refine ⟨h_blank c h_c, ?_⟩
        rintro rfl
        exact h_comment h_c

/-- Blanks and comments are passed over to the last. -/
theorem exists_between (whole text : List Char) :
    ∃ rest, Parses whole between text (some ([], rest)) ∧ Scans text [] rest ∧ IsClean rest ∧
      rest.length ≤ text.length := by
  obtain ⟨middle, h_blanks, h_passed, h_middle, h_shorter⟩ := exists_blanks whole text
  obtain ⟨rest, h_comments, h_scans, h_clean, h_rest⟩ := exists_comments whole middle h_middle
  exact ⟨rest, h_blanks.seq h_comments, h_passed.append h_scans, h_clean, h_rest.trans h_shorter⟩

/-! ## Atoms -/

/-- The pair that stands for a token. -/
def tokenPair : Token → Pair SourceRule
  | .bare text => .mk symbol text.toList []
  | .quoted text => .mk string ('"' :: (text.toList ++ ['"'])) []

theorem parses_string {letters rest : List Char} (h_letters : ∀ c ∈ letters, c ≠ '"') :
    Parses whole (.rule atom) ('"' :: (letters ++ '"' :: rest))
      (some ([tokenPair (.quoted (String.ofList letters))], rest)) := by
  have h_run : Parses whole (.star (.anyBut (.literal '"'))) (letters ++ '"' :: rest)
      (some ([], '"' :: rest)) := (ActsAs.literal '"').anyBut.star (by simpa using h_letters) (by simp)
  have h_body : Parses whole (grammar.expansion string) (('"' :: (letters ++ ['"'])) ++ rest)
      (some ([], rest)) := by
    rw [List.cons_append, List.append_assoc]
    exact (parses_literal '"' _).seq (h_run.seq (parses_literal '"' rest))
  have h_string := Matches.loud rfl h_body
  have h_choice : Parses whole (grammar.expansion atom) _ _ := .choice h_string
  have h_atom : Parses whole (.rule atom) _ _ := .silent rfl h_choice
  rw [tokenPair, String.toList_ofList]
  rwa [List.cons_append, List.append_assoc] at h_atom

theorem parses_symbol {letters rest : List Char} (h_some : letters ≠ [])
    (h_letters : ∀ c ∈ letters, endsWord c = false) (h_end : ∀ c ∈ rest.head?, endsWord c = true) :
    Parses whole (.rule atom) (letters ++ rest)
      (some ([tokenPair (.bare (String.ofList letters))], rest)) := by
  obtain ⟨c, letters, rfl⟩ := List.exists_cons_of_ne_nil h_some
  obtain ⟨h_c, h_more⟩ := List.forall_mem_cons.mp h_letters
  -- what begins a word is no quote, so that the first alternative fails
  have h_quote : c ≠ '"' := by
    intro h_eq
    rw [h_eq] at h_c
    cases h_c
  have h_no_string : Parses whole (grammar.expansion string) ((c :: letters) ++ rest) none :=
    .seqFails ((ActsAs.literal '"').fails (by simpa using h_quote))
  have h_first : Parses whole (.anyBut boundary) ((c :: letters) ++ rest) (some ([], letters ++ rest)) :=
    boundary_actsAs.anyBut.matches_cons (by simp [h_c])
  have h_run : Parses whole (.star (.anyBut boundary)) (letters ++ rest) (some ([], rest)) :=
    boundary_actsAs.anyBut.star (by simpa using h_more) (by simpa using h_end)
  have h_body : Parses whole (grammar.expansion symbol) ((c :: letters) ++ rest) (some ([], rest)) :=
    h_first.seq h_run
  have h_symbol := Matches.loud rfl h_body
  have h_choice : Parses whole (grammar.expansion atom) _ _ :=
    .choiceOther (.ruleFails h_no_string) h_symbol
  have h_atom : Parses whole (.rule atom) _ _ := .silent rfl h_choice
  rwa [tokenPair, String.toList_ofList]

/-- An atom begins with a quote or with a character of a word. -/
theorem atom_fails {text : List Char} (h_quote : ∀ c ∈ text.head?, c ≠ '"')
    (h_text : ∀ c ∈ text.head?, endsWord c = true) : Parses whole (.rule atom) text none := by
  have h_no_string : Parses whole (grammar.expansion string) text none :=
    .seqFails ((ActsAs.literal '"').fails (by simpa using h_quote))
  have h_no_symbol : Parses whole (grammar.expansion symbol) text none :=
    .seqFails (boundary_actsAs.anyBut.fails (by simpa using h_text))
  have h_choice : Parses whole (grammar.expansion atom) text none :=
    .choiceOther (.ruleFails h_no_string) (.ruleFails h_no_symbol)
  exact .silent rfl h_choice

/-- A string that is not closed is no atom. -/
theorem atom_fails_of_unclosed {letters : List Char} (h_letters : ∀ c ∈ letters, c ≠ '"') :
    Parses whole (.rule atom) ('"' :: letters) none := by
  -- the letters go on to the end, and then a quote is missing
  have h_run : Parses whole (.star (.anyBut (.literal '"'))) (letters ++ []) (some ([], [])) :=
    (ActsAs.literal '"').anyBut.star (by simpa using h_letters) nofun
  rw [List.append_nil] at h_run
  have h_no_string : Parses whole (grammar.expansion string) ('"' :: letters) none :=
    (parses_literal '"' letters).seq (h_run.seq .character)
  have h_no_symbol : Parses whole (grammar.expansion symbol) ('"' :: letters) none :=
    .seqFails (boundary_actsAs.anyBut.fails (by rintro _ ⟨⟩; rfl))
  have h_choice : Parses whole (grammar.expansion atom) ('"' :: letters) none :=
    .choiceOther (.ruleFails h_no_string) (.ruleFails h_no_symbol)
  exact .silent rfl h_choice

/-- Either there is a token at the beginning, or no atom. -/
theorem exists_atom (whole text : List Char) :
    (∃ token rest, Parses whole (.rule atom) text (some ([tokenPair token], rest)) ∧
      Scans text [.token token] rest ∧ rest.length < text.length) ∨
      Parses whole (.rule atom) text none := by
  have h_fails {c : Char} {after : List Char} (h_quote : c ≠ '"') (h_c : endsWord c = true) :
      Parses whole (.rule atom) (c :: after) none :=
    atom_fails (by simpa using h_quote) (by simpa using h_c)
  cases beginning text with
  | empty => exact .inr (atom_fails nofun nofun)
  | @blank c after h_blank =>
    refine .inr (h_fails ?_ (by simp [endsWord, h_blank]))
    rintro rfl
    cases h_blank
  | comment | opening | closing => exact .inr (h_fails (by decide) rfl)
  | unclosed h_letters => exact .inr (atom_fails_of_unclosed h_letters)
  | quoted h_letters =>
    refine .inl ⟨_, _, parses_string h_letters, .quoted h_letters .done, ?_⟩
    simp only [List.length_cons, List.length_append]
    omega
  | bare h_some h_letters h_end =>
    refine .inl ⟨_, _, parses_symbol h_some h_letters h_end, .bare h_some h_letters h_end .done, ?_⟩
    have h_length := List.length_pos_iff.mpr h_some
    rw [List.length_append]
    omega

end Parses

end SourceRule

end PlotLisp
