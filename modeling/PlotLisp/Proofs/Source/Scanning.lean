import Mathlib.Data.List.TakeWhile
import PlotLisp.Source.Lexeme

/-!
# What a scanner reads

The lexemes of a text, said without a scanner. `Scans text lexemes rest` reads the text from the
left, one lexeme after another, up to where the rest begins, and always sees all that is left: a bare
word goes on for as long as it can, and so does a comment. `BreaksOff text` says that the text ends
within a string.

Every text either is read to its end or breaks off, and `scan?_eq_some_iff` and `scan?_eq_none_iff`
say that the scanner finds out which.
-/

namespace PlotLisp

/-! ## Reading a text -/

/-- From the first text one reads the lexemes and is left with the second text. -/
inductive Scans : List Char → List Lexeme → List Char → Prop where
  | done {text} : Scans text [] text
  | blank {c text lexemes rest} (h_blank : isBlank c = true) (h_text : Scans text lexemes rest) :
      Scans (c :: text) lexemes rest
  /-- A comment goes on to the next newline, which is none of it, or to the end. -/
  | comment {letters text lexemes rest} (h_letters : ∀ c ∈ letters, c ≠ '\n')
      (h_end : ∀ c ∈ text.head?, c = '\n') (h_text : Scans text lexemes rest) :
      Scans (';' :: (letters ++ text)) lexemes rest
  | opening {text lexemes rest} (h_text : Scans text lexemes rest) :
      Scans ('(' :: text) (.opening :: lexemes) rest
  | closing {text lexemes rest} (h_text : Scans text lexemes rest) :
      Scans (')' :: text) (.closing :: lexemes) rest
  | quoted {letters text lexemes rest} (h_letters : ∀ c ∈ letters, c ≠ '"')
      (h_text : Scans text lexemes rest) :
      Scans ('"' :: (letters ++ '"' :: text)) (.token (.quoted (String.ofList letters)) :: lexemes)
        rest
  /-- A bare word is as long as possible. -/
  | bare {letters text lexemes rest} (h_some : letters ≠ [])
      (h_letters : ∀ c ∈ letters, endsWord c = false) (h_end : ∀ c ∈ text.head?, endsWord c = true)
      (h_text : Scans text lexemes rest) :
      Scans (letters ++ text) (.token (.bare (String.ofList letters)) :: lexemes) rest

/-- The text ends within a string. -/
def BreaksOff (text : List Char) : Prop :=
  ∃ lexemes letters, Scans text lexemes ('"' :: letters) ∧ ∀ c ∈ letters, c ≠ '"'

namespace Scans

variable {text middle rest : List Char} {lexemes others : List Lexeme}

theorem append (h_first : Scans text lexemes middle) (h_next : Scans middle others rest) :
    Scans text (lexemes ++ others) rest := by
  induction h_first with
  | done => exact h_next
  | blank h_blank _ ih => exact .blank h_blank (ih h_next)
  | comment h_letters h_end _ ih => exact .comment h_letters h_end (ih h_next)
  | opening _ ih => exact .opening (ih h_next)
  | closing _ ih => exact .closing (ih h_next)
  | quoted h_letters _ ih => exact .quoted h_letters (ih h_next)
  | bare h_some h_letters h_end _ ih => exact .bare h_some h_letters h_end (ih h_next)

/-- A text that is read to its end is read as far when a newline follows. -/
theorem before_newline (h_text : Scans text lexemes middle) (h_end : middle = []) (rest : List Char) :
    Scans (text ++ '\n' :: rest) lexemes ('\n' :: rest) := by
  have h_newline {p : Char → Prop} {after : List Char} (h_p : p '\n') (h_after : ∀ c ∈ after.head?, p c) :
      ∀ c ∈ (after ++ '\n' :: rest).head?, p c := by
    cases after with
    | nil =>
      intro c h_c
      cases h_c
      exact h_p
    | cons => exact h_after
  induction h_text with
  | done =>
    rw [h_end]
    exact .done
  | blank h_blank _ ih => exact .blank h_blank (ih h_end)
  | comment h_letters h_over _ ih =>
    rw [List.cons_append, List.append_assoc]
    exact .comment h_letters (h_newline rfl h_over) (ih h_end)
  | opening _ ih => exact .opening (ih h_end)
  | closing _ ih => exact .closing (ih h_end)
  | quoted h_letters _ ih =>
    rw [List.cons_append, List.append_assoc]
    exact .quoted h_letters (ih h_end)
  | bare h_some h_letters h_over _ ih =>
    rw [List.append_assoc]
    exact .bare h_some h_letters (h_newline rfl h_over) (ih h_end)

/-- What is left is the last part of the text. -/
theorem exists_read (h_text : Scans text lexemes rest) : ∃ letters, text = letters ++ rest := by
  induction h_text with
  | done => exact ⟨[], rfl⟩
  | @blank c _ _ _ _ _ ih =>
    obtain ⟨read, rfl⟩ := ih
    exact ⟨c :: read, rfl⟩
  | @comment letters _ _ _ _ _ _ ih =>
    obtain ⟨read, rfl⟩ := ih
    exact ⟨';' :: (letters ++ read), by simp⟩
  | opening _ ih =>
    obtain ⟨read, rfl⟩ := ih
    exact ⟨'(' :: read, rfl⟩
  | closing _ ih =>
    obtain ⟨read, rfl⟩ := ih
    exact ⟨')' :: read, rfl⟩
  | @quoted letters _ _ _ _ _ ih =>
    obtain ⟨read, rfl⟩ := ih
    exact ⟨'"' :: (letters ++ '"' :: read), by simp⟩
  | @bare letters _ _ _ _ _ _ _ ih =>
    obtain ⟨read, rfl⟩ := ih
    exact ⟨letters ++ read, by simp⟩

/-- A text that breaks off further on breaks off. -/
theorem breaksOff (h_first : Scans text lexemes middle) (h_middle : BreaksOff middle) :
    BreaksOff text := by
  obtain ⟨others, letters, h_next, h_letters⟩ := h_middle
  exact ⟨lexemes ++ others, letters, h_first.append h_next, h_letters⟩

/-- No bare word is empty. -/
theorem bare_ne_empty (h_text : Scans text lexemes rest) : Lexeme.token (.bare "") ∉ lexemes := by
  induction h_text with
  | done => exact List.not_mem_nil
  | blank _ _ ih | comment _ _ _ ih => exact ih
  | opening _ ih | closing _ ih | quoted _ _ ih => simpa using ih
  | bare h_some _ _ _ ih =>
    rw [List.mem_cons, not_or]
    refine ⟨fun h_empty => h_some ?_, ih⟩
    rw [Lexeme.token.injEq, Token.bare.injEq] at h_empty
    exact String.ofList_eq_empty_iff.mp h_empty.symm

end Scans

/-! ## Every text is read to its end or breaks off -/

/-- A text begins with as many characters of a class as possible. -/
theorem exists_longest_run (p : Char → Bool) (text : List Char) :
    ∃ letters rest, text = letters ++ rest ∧ (∀ c ∈ letters, p c = true) ∧
      ∀ c ∈ rest.head?, p c = false := by
  refine ⟨text.takeWhile p, text.dropWhile p, List.takeWhile_append_dropWhile.symm,
    fun c h_c => List.mem_takeWhile_imp h_c, fun c h_c => ?_⟩
  have h_head := List.head?_dropWhile_not p text
  rw [Option.mem_def.mp h_c] at h_head
  simpa using h_head

/-- The ways in which a text can begin. -/
inductive Beginning : List Char → Prop where
  | empty : Beginning []
  | blank {c text} (h_blank : isBlank c = true) : Beginning (c :: text)
  | comment {letters text} (h_letters : ∀ c ∈ letters, c ≠ '\n') (h_end : ∀ c ∈ text.head?, c = '\n') :
      Beginning (';' :: (letters ++ text))
  | opening {text} : Beginning ('(' :: text)
  | closing {text} : Beginning (')' :: text)
  | quoted {letters text} (h_letters : ∀ c ∈ letters, c ≠ '"') :
      Beginning ('"' :: (letters ++ '"' :: text))
  | unclosed {letters} (h_letters : ∀ c ∈ letters, c ≠ '"') : Beginning ('"' :: letters)
  | bare {letters text} (h_some : letters ≠ []) (h_letters : ∀ c ∈ letters, endsWord c = false)
      (h_end : ∀ c ∈ text.head?, endsWord c = true) : Beginning (letters ++ text)

theorem beginning (text : List Char) : Beginning text := by
  rcases text with _ | ⟨c, text⟩
  · exact .empty
  by_cases h_blank : isBlank c = true
  · exact .blank h_blank
  by_cases h_opening : c = '('
  · rw [h_opening]
    exact .opening
  by_cases h_closing : c = ')'
  · rw [h_closing]
    exact .closing
  by_cases h_quote : c = '"'
  · -- a string goes on to the next quote, if there is one
    obtain ⟨letters, rest, rfl, h_letters, h_end⟩ := exists_longest_run (· ≠ '"') text
    simp only [decide_eq_true_eq] at h_letters
    rw [h_quote]
    rcases rest with _ | ⟨d, rest⟩
    · rw [List.append_nil]
      exact .unclosed h_letters
    · have h_d : d = '"' := by simpa using h_end d rfl
      rw [h_d]
      exact .quoted h_letters
  by_cases h_comment : c = ';'
  · -- a comment goes on to the newline or to the end, and needs no more than that
    obtain ⟨letters, rest, rfl, h_letters, h_end⟩ := exists_longest_run (· ≠ '\n') text
    rw [h_comment]
    exact .comment (by simpa using h_letters) (by simpa using h_end)
  -- what is left can only begin a bare word
  have h_word : endsWord c = false := by
    simp [endsWord, h_blank, h_opening, h_closing, h_quote, h_comment]
  obtain ⟨letters, rest, rfl, h_letters, h_end⟩ := exists_longest_run (!endsWord ·) text
  have h_all : ∀ d ∈ c :: letters, endsWord d = false := by simpa [h_word] using h_letters
  exact .bare (List.cons_ne_nil c letters) h_all (by simpa using h_end)

/-- There is always something to read next: the end, an open string, or something that the rest of
the text comes after. -/
theorem Beginning.scans {text : List Char} (h_text : Beginning text) :
    text = [] ∨ BreaksOff text ∨ ∃ lexemes rest, Scans text lexemes rest ∧ rest.length < text.length := by
  cases h_text with
  | empty => exact .inl rfl
  | blank h_blank => exact .inr (.inr ⟨_, _, .blank h_blank .done, Nat.lt_succ_self _⟩)
  | @comment letters rest h_letters h_end =>
    refine .inr (.inr ⟨_, _, .comment h_letters h_end .done, ?_⟩)
    simp only [List.length_cons, List.length_append]
    omega
  | opening => exact .inr (.inr ⟨_, _, .opening .done, Nat.lt_succ_self _⟩)
  | closing => exact .inr (.inr ⟨_, _, .closing .done, Nat.lt_succ_self _⟩)
  | quoted h_letters =>
    refine .inr (.inr ⟨_, _, .quoted h_letters .done, ?_⟩)
    simp only [List.length_cons, List.length_append]
    omega
  | unclosed h_letters => exact .inr (.inl ⟨_, _, .done, h_letters⟩)
  | bare h_some h_letters h_end =>
    refine .inr (.inr ⟨_, _, .bare h_some h_letters h_end .done, ?_⟩)
    have h_length := List.length_pos_iff.mpr h_some
    rw [List.length_append]
    omega

theorem scans_or_breaksOff (text : List Char) : (∃ lexemes, Scans text lexemes []) ∨ BreaksOff text := by
  induction h_length : text.length using Nat.strong_induction_on generalizing text with
  | _ length ih =>
    rcases (beginning text).scans with rfl | h_broken | ⟨lexemes, rest, h_first, h_less⟩
    · exact .inl ⟨[], .done⟩
    · exact .inr h_broken
    · -- the rest is shorter, and what becomes of it becomes of the whole
      rcases ih rest.length (h_length ▸ h_less) rest rfl with ⟨others, h_rest⟩ | h_broken
      · exact .inl ⟨_, h_first.append h_rest⟩
      · exact .inr (h_first.breaksOff h_broken)

/-! ## The scanner -/

namespace Scanner

/-- What becomes of a text, for a scanner in this state. -/
def finishOn? (state : ScanState) (found : List Lexeme) (text : List Char) : Option (List Lexeme) :=
  (text.foldl next ⟨state, found⟩).finish?

variable {found : List Lexeme} {text rest letters : List Char} {lexemes : List Lexeme}

theorem foldl_comment (h_letters : ∀ c ∈ letters, c ≠ '\n') :
    letters.foldl next ⟨.comment, found⟩ = ⟨.comment, found⟩ := by
  induction letters with
  | nil => rfl
  | cons c letters ih =>
    obtain ⟨h_c, h_rest⟩ := List.forall_mem_cons.mp h_letters
    have h_next : next ⟨.comment, found⟩ c = ⟨.comment, found⟩ := if_neg h_c
    rw [List.foldl_cons, h_next, ih h_rest]

theorem foldl_quoted (found : List Lexeme) (before : List Char)
    (h_letters : ∀ c ∈ letters, c ≠ '"') :
    letters.foldl next ⟨.quoted before, found⟩ = ⟨.quoted (letters.reverse ++ before), found⟩ := by
  induction letters generalizing before with
  | nil => rfl
  | cons c letters ih =>
    obtain ⟨h_c, h_rest⟩ := List.forall_mem_cons.mp h_letters
    have h_next : next ⟨.quoted before, found⟩ c = ⟨.quoted (c :: before), found⟩ := if_neg h_c
    rw [List.foldl_cons, h_next, ih (c :: before) h_rest, List.reverse_cons, List.append_assoc]
    rfl

theorem foldl_bare (before : List Char) (h_letters : ∀ c ∈ letters, endsWord c = false) :
    letters.foldl next ⟨.bare before, found⟩ = ⟨.bare (letters.reverse ++ before), found⟩ := by
  induction letters generalizing before with
  | nil => rfl
  | cons c letters ih =>
    obtain ⟨h_c, h_rest⟩ := List.forall_mem_cons.mp h_letters
    have h_next : next ⟨.bare before, found⟩ c = ⟨.bare (c :: before), found⟩ :=
      if_neg (Bool.eq_false_iff.mp h_c)
    rw [List.foldl_cons, h_next, ih (c :: before) h_rest, List.reverse_cons, List.append_assoc]
    rfl

/-- A character that ends no word begins one. -/
theorem begin_of_word {c : Char} (h_word : endsWord c = false) :
    begin found c = ⟨.bare [c], found⟩ := by
  simp only [endsWord, Bool.or_eq_false_iff, beq_eq_false_iff_ne] at h_word
  obtain ⟨⟨⟨⟨h_blank, h_opening⟩, h_closing⟩, h_quote⟩, h_comment⟩ := h_word
  simp [begin, h_blank, h_opening, h_closing, h_quote, h_comment]

/-- A comment that is over leaves nothing behind. -/
theorem finishOn?_comment (h_end : ∀ c ∈ text.head?, c = '\n') :
    finishOn? .comment found text = finishOn? .between found text := by
  rcases text with _ | ⟨c, text⟩
  · rfl
  · rw [h_end c rfl]
    rfl

/-- A bare word that is over has been found. -/
theorem finishOn?_bare (h_end : ∀ c ∈ text.head?, endsWord c = true) :
    finishOn? (.bare letters) found text = finishOn? .between (bareWord letters :: found) text := by
  rcases text with _ | ⟨c, text⟩
  · rfl
  · have h_next : next ⟨.bare letters, found⟩ c = next ⟨.between, bareWord letters :: found⟩ c :=
      if_pos (h_end c rfl)
    rw [finishOn?, List.foldl_cons, h_next]
    rfl

/-- The scanner finds what there is to read, and goes on with the rest. -/
theorem finishOn?_of_scans (h_text : Scans text lexemes rest) (found : List Lexeme) :
    finishOn? .between found text = finishOn? .between (lexemes.reverse ++ found) rest := by
  induction h_text generalizing found with
  | done => rfl
  | @blank c text lexemes rest h_blank _ ih =>
    have h_next : next ⟨.between, found⟩ c = ⟨.between, found⟩ := if_pos h_blank
    rw [← ih found, finishOn?, List.foldl_cons, h_next]
    rfl
  | comment h_letters h_end _ ih =>
    -- the scanner stays in the comment, and behind it goes on as if there had been none
    rw [← ih found, ← finishOn?_comment h_end, finishOn?, List.foldl_cons, List.foldl_append]
    exact congrArg (fun s => finish? (List.foldl next s _)) (foldl_comment h_letters)
  | opening _ ih | closing _ ih =>
    rw [List.reverse_cons, List.append_assoc]
    exact ih _
  | @quoted letters text lexemes rest h_letters _ ih =>
    -- the scanner keeps the letters of a word in reverse
    have h_found : quotedWord letters.reverse = .token (.quoted (String.ofList letters)) := by
      rw [quotedWord, List.reverse_reverse]
    rw [List.reverse_cons, List.append_assoc, List.singleton_append, ← ih, ← h_found]
    rw [finishOn?, List.foldl_cons, List.foldl_append, List.foldl_cons]
    have h_word := foldl_quoted found [] h_letters
    rw [List.append_nil] at h_word
    exact congrArg (fun s => finish? (List.foldl next (next s '"') text)) h_word
  | @bare letters text lexemes rest h_some h_letters h_end _ ih =>
    obtain ⟨c, letters, rfl⟩ := List.exists_cons_of_ne_nil h_some
    obtain ⟨h_c, h_rest⟩ := List.forall_mem_cons.mp h_letters
    have h_found : bareWord (letters.reverse ++ [c])
        = .token (.bare (String.ofList (c :: letters))) := by
      rw [bareWord, List.reverse_append, List.reverse_reverse]
      rfl
    -- the word is found only at the character behind it
    rw [List.reverse_cons, List.append_assoc, List.singleton_append, ← ih, ← h_found,
      ← finishOn?_bare h_end]
    rw [finishOn?, List.foldl_append, List.foldl_cons]
    have h_next : next ⟨.between, found⟩ c = ⟨.bare [c], found⟩ := begin_of_word h_c
    rw [h_next, foldl_bare [c] h_rest]
    rfl

end Scanner

/-! ## What the scanner finds -/

theorem scan?_of_scans {text : String} {lexemes : List Lexeme} (h_text : Scans text.toList lexemes []) :
    Lexeme.scan? text = some lexemes := by
  have h_finish := Scanner.finishOn?_of_scans h_text []
  rw [List.append_nil] at h_finish
  refine h_finish.trans ?_
  exact congrArg some (List.reverse_reverse lexemes)

theorem scan?_of_breaksOff {text : String} (h_text : BreaksOff text.toList) :
    Lexeme.scan? text = none := by
  obtain ⟨lexemes, letters, h_scans, h_letters⟩ := h_text
  refine (Scanner.finishOn?_of_scans h_scans []).trans ?_
  rw [Scanner.finishOn?, List.foldl_cons]
  -- at the end the scanner is still within the string
  exact congrArg Scanner.finish? (Scanner.foldl_quoted _ [] h_letters)

theorem scan?_eq_some_iff {text : String} {lexemes : List Lexeme} :
    Lexeme.scan? text = some lexemes ↔ Scans text.toList lexemes [] := by
  refine ⟨fun h_scan => ?_, scan?_of_scans⟩
  rcases scans_or_breaksOff text.toList with ⟨others, h_scans⟩ | h_broken
  · rw [scan?_of_scans h_scans, Option.some.injEq] at h_scan
    rwa [← h_scan]
  · rw [scan?_of_breaksOff h_broken] at h_scan
    cases h_scan

theorem scan?_eq_none_iff {text : String} : Lexeme.scan? text = none ↔ BreaksOff text.toList := by
  refine ⟨fun h_scan => ?_, scan?_of_breaksOff⟩
  refine (scans_or_breaksOff text.toList).resolve_left ?_
  rintro ⟨lexemes, h_scans⟩
  rw [scan?_of_scans h_scans] at h_scan
  cases h_scan

/-- There is one way to read a text to its end. -/
theorem Scans.unique {text : List Char} {lexemes others : List Lexeme}
    (h_lexemes : Scans text lexemes []) (h_others : Scans text others []) : lexemes = others := by
  rw [← String.toList_ofList (l := text)] at h_lexemes h_others
  have h_scan := scan?_of_scans h_lexemes
  rw [scan?_of_scans h_others, Option.some.injEq] at h_scan
  exact h_scan.symm

/-- A text that is read to its end does not break off. -/
theorem Scans.not_breaksOff {text : List Char} {lexemes : List Lexeme}
    (h_lexemes : Scans text lexemes []) : ¬ BreaksOff text := by
  intro h_broken
  rw [← String.toList_ofList (l := text)] at h_lexemes h_broken
  have h_scan := scan?_of_scans h_lexemes
  rw [scan?_of_breaksOff h_broken] at h_scan
  cases h_scan

/-- What is read first is read first in every reading. -/
theorem Scans.exists_rest {text middle : List Char} {lexemes all : List Lexeme}
    (h_first : Scans text lexemes middle) (h_all : Scans text all []) :
    ∃ others, all = lexemes ++ others ∧ Scans middle others [] := by
  rcases scans_or_breaksOff middle with ⟨others, h_others⟩ | h_broken
  · exact ⟨others, h_all.unique (h_first.append h_others), h_others⟩
  · exact absurd (h_first.breaksOff h_broken) h_all.not_breaksOff

/-- What is passed over first makes no difference to the lexemes. -/
theorem Scans.of_passed {text middle : List Char} {lexemes : List Lexeme}
    (h_passed : Scans text [] middle) (h_text : Scans text lexemes []) : Scans middle lexemes [] := by
  obtain ⟨others, h_lexemes, h_rest⟩ := h_passed.exists_rest h_text
  rwa [h_lexemes, List.nil_append]

end PlotLisp
