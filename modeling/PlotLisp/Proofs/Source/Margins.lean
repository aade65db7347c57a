import PlotLisp.Host.Lines
import PlotLisp.Proofs.Source.Forms
import PlotLisp.Proofs.Source.Scanning

/-!
# White space at the ends of a text

The host takes the white space off the ends of a line before it is read as a program, and means by that
whatever is white space among all characters. A program has four blanks only, and all other characters
are letters of words. So a text may be another program once it is trimmed, or be one only then.

* `HasBlankMargins` says that the white space at the ends is blank, or is behind the text in a comment.
* Where it holds, trimming makes no difference (`parseProgram_trim`).
* Where it does not, there is a word outside of all parentheses, and the text as it stands is no program
  (`parseProgram_of_not_hasBlankMargins`).
-/

namespace PlotLisp

/-! ## The ends of a text -/

/-- The white space in front of a text. -/
def leadingSpace (text : String) : List Char := text.toList.takeWhile isWhiteSpace

/-- The white space behind a text, where there is none that is in front of it as well. -/
def trailingSpace (text : String) : List Char :=
  ((text.toList.dropWhile isWhiteSpace).reverse.takeWhile isWhiteSpace).reverse

theorem toList_eq_margins (text : String) :
    text.toList = leadingSpace text ++ (trim text).toList ++ trailingSpace text := by
  have h_behind : text.toList.dropWhile isWhiteSpace = (trim text).toList ++ trailingSpace text := by
    rw [trim, trailingSpace, String.toList_ofList, ← List.reverse_append,
      List.takeWhile_append_dropWhile, List.reverse_reverse]
  calc text.toList
      = leadingSpace text ++ text.toList.dropWhile isWhiteSpace :=
        List.takeWhile_append_dropWhile.symm
    _ = leadingSpace text ++ ((trim text).toList ++ trailingSpace text) := by rw [h_behind]
    _ = leadingSpace text ++ (trim text).toList ++ trailingSpace text :=
        (List.append_assoc _ _ _).symm

theorem isWhiteSpace_of_mem_leadingSpace {text : String} {c : Char} (h_c : c ∈ leadingSpace text) :
    isWhiteSpace c = true := List.mem_takeWhile_imp h_c

theorem isWhiteSpace_of_mem_trailingSpace {text : String} {c : Char} (h_c : c ∈ trailingSpace text) :
    isWhiteSpace c = true := List.mem_takeWhile_imp (List.mem_reverse.mp h_c)

/-- A line feed at the end is trimmed off with the rest. -/
theorem trim_append_newline (text : String) : trim (text ++ "\n") = trim text := by
  have h_newline : isWhiteSpace '\n' = true := by decide
  have h_letters : (text ++ "\n").toList = text.toList ++ ['\n'] := by simp
  rw [trim, trim, h_letters, List.dropWhile_append]
  rcases h_rest : text.toList.dropWhile isWhiteSpace with _ | ⟨c, rest⟩
  · simp [h_newline]
  · simp [h_newline]

/-- The text ends within a comment. -/
def EndsInComment (text : String) : Prop :=
  (text.toList.foldl Scanner.next {}).state = .comment

/-- The white space at the ends of a text is blank, or is behind the text in a comment. -/
structure HasBlankMargins (text : String) : Prop where
  leading : ∀ c ∈ leadingSpace text, isBlank c = true
  trailing : (∀ c ∈ trailingSpace text, isBlank c = true) ∨ EndsInComment (trim text)

/-! ## White space as the scanner sees it -/

/-- White space that is not blank is a letter like any other. -/
theorem endsWord_of_isWhiteSpace {c : Char} (h_space : isWhiteSpace c = true)
    (h_letter : isBlank c = false) : endsWord c = false := by
  have h_ne (d : Char) (h_d : isWhiteSpace d = false) : c ≠ d := by
    rintro rfl
    rw [h_space] at h_d
    cases h_d
  have h_opening := h_ne '(' (by decide)
  have h_closing := h_ne ')' (by decide)
  have h_quote := h_ne '"' (by decide)
  have h_comment := h_ne ';' (by decide)
  simp [endsWord, h_letter, h_opening, h_closing, h_quote, h_comment]

namespace Scanner

variable {s : Scanner} {c : Char} {letters : List Char} {found : List Lexeme}

theorem next_between_of_isBlank (found : List Lexeme) (h_blank : isBlank c = true) :
    next ⟨.between, found⟩ c = ⟨.between, found⟩ := if_pos h_blank

theorem next_between_of_letter (found : List Lexeme) (h_word : endsWord c = false) :
    next ⟨.between, found⟩ c = ⟨.bare [c], found⟩ := begin_of_word h_word

theorem next_bare_of_isBlank (word : List Char) (found : List Lexeme) (h_blank : isBlank c = true) :
    next ⟨.bare word, found⟩ c = ⟨.between, bareWord word :: found⟩ := by
  have h_ends : endsWord c = true := by simp [endsWord, h_blank]
  have h_next : next ⟨.bare word, found⟩ c = begin (bareWord word :: found) c := if_pos h_ends
  rw [h_next, begin, if_pos h_blank]

/-- A blank adds nothing to what is found in the end. -/
theorem finish?_next_of_isBlank (s : Scanner) (h_blank : isBlank c = true) :
    (s.next c).finish? = s.finish? := by
  obtain ⟨state, found⟩ := s
  cases state with
  | between => rw [next_between_of_isBlank found h_blank]
  | comment =>
    by_cases h_newline : c = '\n'
    · rw [h_newline]
      rfl
    · have h_next : next ⟨.comment, found⟩ c = ⟨.comment, found⟩ := if_neg h_newline
      rw [h_next]
  | quoted word =>
    have h_quote : c ≠ '"' := by
      rintro rfl
      cases h_blank
    have h_next : next ⟨.quoted word, found⟩ c = ⟨.quoted (c :: word), found⟩ := if_neg h_quote
    rw [h_next]
    rfl
  | bare word =>
    rw [next_bare_of_isBlank word found h_blank]
    rfl

theorem finish?_foldl_of_isBlank (s : Scanner) (h_blank : ∀ c ∈ letters, isBlank c = true) :
    (letters.foldl next s).finish? = s.finish? := by
  induction letters generalizing s with
  | nil => rfl
  | cons c letters ih =>
    obtain ⟨h_c, h_rest⟩ := List.forall_mem_cons.mp h_blank
    rw [List.foldl_cons, ih (s.next c) h_rest, finish?_next_of_isBlank s h_c]

theorem foldl_between_of_isBlank (found : List Lexeme) (h_blank : ∀ c ∈ letters, isBlank c = true) :
    letters.foldl next ⟨.between, found⟩ = ⟨.between, found⟩ := by
  induction letters with
  | nil => rfl
  | cons c letters ih =>
    obtain ⟨h_c, h_rest⟩ := List.forall_mem_cons.mp h_blank
    rw [List.foldl_cons, next_between_of_isBlank found h_c, ih h_rest]

/-- Without a newline a comment goes on. -/
theorem foldl_of_comment (h_comment : s.state = .comment) (h_letters : ∀ c ∈ letters, c ≠ '\n') :
    letters.foldl next s = s := by
  obtain ⟨state, found⟩ := s
  obtain rfl : state = .comment := h_comment
  exact foldl_comment h_letters

end Scanner

/-! ## Margins that are passed over -/

/-- Blanks in front of a text leave the scanner as it is. -/
theorem scan?_of_leading {text : String} (h_leading : ∀ c ∈ leadingSpace text, isBlank c = true) :
    Lexeme.scan? text = ((trailingSpace text).foldl Scanner.next
      ((trim text).toList.foldl Scanner.next {})).finish? := by
  rw [Lexeme.scan?, toList_eq_margins text, List.foldl_append, List.foldl_append,
    Scanner.foldl_between_of_isBlank [] h_leading]

theorem scan?_trim {text : String} (h_line : '\n' ∉ text.toList) (h_margins : HasBlankMargins text) :
    Lexeme.scan? text = Lexeme.scan? (trim text) := by
  rw [scan?_of_leading h_margins.leading]
  rcases h_margins.trailing with h_blank | h_comment
  · exact Scanner.finish?_foldl_of_isBlank _ h_blank
  · have h_letters : ∀ c ∈ trailingSpace text, c ≠ '\n' := by
      rintro c h_c rfl
      refine h_line ?_
      rw [toList_eq_margins text]
      exact List.mem_append_right _ h_c
    rw [Scanner.foldl_of_comment h_comment h_letters]
    rfl

/-- Where the margins are blank, a text is the program that it is once it is trimmed. -/
theorem parseProgram_trim {text : String} (h_line : '\n' ∉ text.toList)
    (h_margins : HasBlankMargins text) : parseProgram text = parseProgram (trim text) := by
  rw [parseProgram, parseProgram, Form.read?, Form.read?, scan?_trim h_line h_margins]

/-! ## Margins that hold a word -/

/-- A form begins with a parenthesis. -/
theorem Form.ofLexemes?_of_head {row : List Lexeme} {token : Token}
    (h_head : row.head? = some (.token token)) : ofLexemes? row = none := by
  rw [Option.eq_none_iff_forall_ne_some]
  intro form h_form
  obtain ⟨⟨head, items, rfl⟩, rfl⟩ := ofLexemes?_eq_some_iff.mp h_form
  simp [lexemes] at h_head

/-- A form ends with a parenthesis. -/
theorem Form.ofLexemes?_of_getLast {row : List Lexeme} {token : Token}
    (h_last : row.getLast? = some (.token token)) : ofLexemes? row = none := by
  rw [Option.eq_none_iff_forall_ne_some]
  intro form h_form
  obtain ⟨⟨head, items, rfl⟩, rfl⟩ := ofLexemes?_eq_some_iff.mp h_form
  have h_row : (node head items).lexemes
      = (.opening :: .token head :: lexemesOf items) ++ [.closing] := by rw [lexemes]; rfl
  rw [h_row, List.getLast?_concat] at h_last
  cases h_last

/-- In front of everything else, white space that is not blank begins a word. -/
theorem Scans.head_of_isWhiteSpace {letters rest : List Char} {lexemes : List Lexeme}
    (h_text : Scans (letters ++ rest) lexemes []) (h_space : ∀ c ∈ letters, isWhiteSpace c = true)
    (h_letter : ∃ c ∈ letters, isBlank c = false) :
    ∃ token, lexemes.head? = some (.token token) := by
  induction letters with
  | nil => simp at h_letter
  | cons c letters ih =>
    obtain ⟨h_c, h_rest⟩ := List.forall_mem_cons.mp h_space
    rcases h_blank : isBlank c
    · -- no lexeme begins with such a letter but a bare word
      have h_word := endsWord_of_isWhiteSpace h_c h_blank
      rw [List.cons_append] at h_text
      generalize letters ++ rest = tail at h_text
      generalize h_all : c :: tail = text at h_text
      cases h_text with
      | done => cases h_all
      | bare => exact ⟨_, rfl⟩
      | blank h_other =>
        cases h_all
        rw [h_blank] at h_other
        cases h_other
      | comment | opening | closing | quoted =>
        cases h_all
        cases h_word
    · have h_later : ∃ d ∈ letters, isBlank d = false := by simpa [h_blank] using h_letter
      exact ih (Scans.of_passed (.blank h_blank .done) h_text) h_rest h_later

namespace Scanner

variable {s : Scanner} {c : Char} {letters : List Char}

/-- The last lexeme is a token, or will be one: a bare word that is not over. -/
def LastIsToken (s : Scanner) : Prop :=
  (∃ word, s.state = .bare word) ∨
    s.state = .between ∧ ∃ token, s.found.head? = some (.token token)

theorem LastIsToken.next (h_last : s.LastIsToken) (h_space : isWhiteSpace c = true) :
    (s.next c).LastIsToken := by
  obtain ⟨state, found⟩ := s
  rcases h_blank : isBlank c
  · -- the letter goes on with a word or begins one
    have h_word := endsWord_of_isWhiteSpace h_space h_blank
    obtain ⟨word, rfl⟩ | ⟨rfl, -⟩ := h_last
    · have h_next : Scanner.next ⟨.bare word, found⟩ c = ⟨.bare (c :: word), found⟩ :=
        if_neg (Bool.eq_false_iff.mp h_word)
      rw [h_next]
      exact .inl ⟨_, rfl⟩
    · rw [next_between_of_letter found h_word]
      exact .inl ⟨[c], rfl⟩
  · obtain ⟨word, rfl⟩ | ⟨rfl, token, h_token⟩ := h_last
    · rw [next_bare_of_isBlank word found h_blank]
      exact .inr ⟨rfl, _, rfl⟩
    · rw [next_between_of_isBlank found h_blank]
      exact .inr ⟨rfl, token, h_token⟩

theorem LastIsToken.foldl (h_last : s.LastIsToken) (h_space : ∀ c ∈ letters, isWhiteSpace c = true) :
    (letters.foldl Scanner.next s).LastIsToken := by
  induction letters generalizing s with
  | nil => exact h_last
  | cons c letters ih =>
    obtain ⟨h_c, h_rest⟩ := List.forall_mem_cons.mp h_space
    exact ih (h_last.next h_c) h_rest

theorem LastIsToken.getLast_finish? (h_last : s.LastIsToken) :
    ∃ row token, s.finish? = some row ∧ row.getLast? = some (.token token) := by
  obtain ⟨state, found⟩ := s
  obtain ⟨word, rfl⟩ | ⟨rfl, token, h_token⟩ := h_last
  · exact ⟨_, _, rfl, by rw [List.getLast?_reverse]; rfl⟩
  · exact ⟨_, token, rfl, by rw [List.getLast?_reverse]; exact h_token⟩

/-- Behind everything else, white space that is not blank is in a word, unless it is in a comment or
a string. -/
theorem lastIsToken_foldl (found : List Lexeme) (h_space : ∀ c ∈ letters, isWhiteSpace c = true)
    (h_letter : ∃ c ∈ letters, isBlank c = false) :
    (letters.foldl Scanner.next ⟨.between, found⟩).LastIsToken := by
  induction letters with
  | nil => simp at h_letter
  | cons c letters ih =>
    obtain ⟨h_c, h_rest⟩ := List.forall_mem_cons.mp h_space
    rw [List.foldl_cons]
    rcases h_blank : isBlank c
    · rw [next_between_of_letter found (endsWord_of_isWhiteSpace h_c h_blank)]
      exact LastIsToken.foldl (.inl ⟨[c], rfl⟩) h_rest
    · have h_later : ∃ d ∈ letters, isBlank d = false := by simpa [h_blank] using h_letter
      rw [next_between_of_isBlank found h_blank]
      exact ih h_rest h_later

end Scanner

theorem exists_letter_of_not_isBlank {letters : List Char}
    (h_letters : ¬ ∀ c ∈ letters, isBlank c = true) : ∃ c ∈ letters, isBlank c = false := by
  simpa using h_letters

theorem read?_of_leading {text : String} (h_leading : ∃ c ∈ leadingSpace text, isBlank c = false) :
    Form.read? text = none := by
  rcases h_scan : Lexeme.scan? text with _ | row
  · rw [Form.read?, h_scan]
    rfl
  · have h_row := scan?_eq_some_iff.mp h_scan
    rw [toList_eq_margins, List.append_assoc] at h_row
    obtain ⟨token, h_head⟩ :=
      h_row.head_of_isWhiteSpace (fun _ h_c => isWhiteSpace_of_mem_leadingSpace h_c) h_leading
    rw [Form.read?, h_scan]
    exact Form.ofLexemes?_of_head h_head

theorem read?_of_trailing {text : String} (h_leading : ∀ c ∈ leadingSpace text, isBlank c = true)
    (h_trailing : ∃ c ∈ trailingSpace text, isBlank c = false) (h_open : ¬ EndsInComment (trim text)) :
    Form.read? text = none := by
  have h_space : ∀ c ∈ trailingSpace text, isWhiteSpace c = true :=
    fun _ h_c => isWhiteSpace_of_mem_trailingSpace h_c
  rw [Form.read?, scan?_of_leading h_leading]
  rcases h_scanner : (trim text).toList.foldl Scanner.next {} with ⟨state, found⟩
  suffices h_last : (∃ letters, state = .quoted letters) ∨
      ((trailingSpace text).foldl Scanner.next ⟨state, found⟩).LastIsToken by
    rcases h_last with ⟨letters, rfl⟩ | h_last
    · -- white space does not end a string
      have h_quote : ∀ c ∈ trailingSpace text, c ≠ '"' := by
        rintro c h_c rfl
        cases h_space _ h_c
      rw [Scanner.foldl_quoted found letters h_quote]
      rfl
    · obtain ⟨row, token, h_finish, h_token⟩ := h_last.getLast_finish?
      rw [h_finish]
      exact Form.ofLexemes?_of_getLast h_token
  cases state with
  | between => exact .inr (Scanner.lastIsToken_foldl found h_space h_trailing)
  | comment => exact absurd (congrArg Scanner.state h_scanner) h_open
  | quoted letters => exact .inl ⟨letters, rfl⟩
  | bare letters => exact .inr (Scanner.LastIsToken.foldl (.inl ⟨letters, rfl⟩) h_space)

/-- Where the margins are not blank, a text is no program. -/
theorem parseProgram_of_not_hasBlankMargins {text : String} (h_margins : ¬ HasBlankMargins text) :
    parseProgram text = .error .notAForm := by
  have h_none : Form.read? text = none := by
    by_cases h_leading : ∀ c ∈ leadingSpace text, isBlank c = true
    · have h_trailing := not_or.mp fun h_trailing => h_margins ⟨h_leading, h_trailing⟩
      exact read?_of_trailing h_leading (exists_letter_of_not_isBlank h_trailing.1) h_trailing.2
    · exact read?_of_leading (exists_letter_of_not_isBlank h_leading)
  rw [parseProgram, h_none]

end PlotLisp
