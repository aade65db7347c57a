import Mathlib.Algebra.Order.Kleene
import PlotLisp.Proofs.Number.Numeral
import PlotLisp.Source.Token

/-!
# Kinds of tokens

A bare word is a number exactly if it is written as a numeral. The reader of numbers knows a few words
besides, but each of them has a letter that no numeral has, and the words that are considered have no
such letter. Of the other words the empty one and those with a digit in front have no value, two are
markers, and all the rest are symbols as they stand.

* `isSome_numberOfWord?_iff` says which words are numbers.
* `words_have_one_kind` is the conclusion.
-/

namespace PlotLisp

open scoped Computability

/-! ## Characters of numerals -/

theorem toLower_of_isDigit {c : Char} (h_digit : c.isDigit = true) : c.toLower = c := by
  obtain ⟨-, h_last⟩ := (Bool.and_eq_true _ _).mp h_digit
  have h_lower : ¬ (c.val ≥ 'A'.val ∧ c.val ≤ 'Z'.val) := fun h_upper =>
    absurd (UInt32.le_trans h_upper.1 (of_decide_eq_true h_last)) (by decide)
  exact dif_neg h_lower

theorem toLower_ne_n {c : Char} (h_c : isNumeric c = true) : c.toLower ≠ 'n' := by
  simp only [isNumeric, Bool.or_eq_true, beq_iff_eq] at h_c
  rcases h_c with ((((h_digit | rfl) | rfl) | rfl) | rfl) | rfl
  · rw [toLower_of_isDigit h_digit]
    rintro rfl
    exact absurd h_digit (by decide)
  all_goals decide

/-- A numeral is made of the characters that a number is written with. -/
theorem isNumeric_of_mem_grammar {text : List Char} (h_text : text ∈ Numeral.grammar) :
    ∀ c ∈ text, isNumeric c = true := by
  have h_letter {kind : Char → Bool} (h_kind : ∀ c, kind c = true → isNumeric c = true) :
      letter kind ≤ (letter isNumeric)∗ := by
    refine le_trans ?_ le_kstar
    rintro _ ⟨c, h_c, rfl⟩
    exact ⟨c, h_kind c h_c, rfl⟩
  have h_mul {first second : Language Char} (h_first : first ≤ (letter isNumeric)∗)
      (h_second : second ≤ (letter isNumeric)∗) : first * second ≤ (letter isNumeric)∗ :=
    (mul_le_mul' h_first h_second).trans_eq (kstar_mul_kstar _)
  have h_perhaps {part : Language Char} (h_part : part ≤ (letter isNumeric)∗) :
      perhaps part ≤ (letter isNumeric)∗ := add_le one_le_kstar h_part
  have h_digit : letter Char.isDigit ≤ (letter isNumeric)∗ :=
    h_letter fun c h_c => by simp [isNumeric, h_c]
  have h_many : (letter Char.isDigit)∗ ≤ (letter isNumeric)∗ :=
    (kstar_mono h_digit).trans_eq (kstar_idem _)
  have h_digits : Numeral.digits ≤ (letter isNumeric)∗ := h_mul h_digit h_many
  have h_sign : Numeral.sign ≤ (letter isNumeric)∗ := h_letter fun c h_c => by
    rcases (Bool.or_eq_true _ _).mp h_c with h_c | h_c <;> rw [eq_of_beq h_c] <;> rfl
  have h_point : Numeral.point ≤ (letter isNumeric)∗ := h_letter fun c h_c => by
    rw [eq_of_beq h_c]
    rfl
  have h_mark : letter (fun c => c == 'e' || c == 'E') ≤ (letter isNumeric)∗ := h_letter fun c h_c => by
    rcases (Bool.or_eq_true _ _).mp h_c with h_c | h_c <;> rw [eq_of_beq h_c] <;> rfl
  have h_significand : Numeral.significand ≤ (letter isNumeric)∗ :=
    add_le (h_mul h_digits (h_perhaps (h_mul h_point h_many))) (h_mul h_point h_digits)
  have h_power : Numeral.power ≤ (letter isNumeric)∗ := h_mul (h_mul h_mark (h_perhaps h_sign)) h_digits
  exact mem_kstar_letter_iff.mp
    (h_mul (h_mul (h_perhaps h_sign) h_significand) (h_perhaps h_power) h_text)

theorem mem_of_mem_takeSign {text : List Char} {c : Char} (h_c : c ∈ (takeSign text).2) : c ∈ text := by
  unfold takeSign at h_c
  split at h_c
  · exact List.mem_cons_of_mem _ h_c
  · exact List.mem_cons_of_mem _ h_c
  · exact h_c

/-- Where only such characters stand, a number is a decimal: all the words for numbers have an `n`. -/
theorem readNumber?_eq_readDecimal? {text : List Char} (h_text : ∀ c ∈ text, isNumeric c = true) :
    readNumber? text = readDecimal? text := by
  have h_word (word : String) (h_letter : 'n' ∈ word.toList) :
      String.ofList ((takeSign text).2.map Char.toLower) ≠ word := by
    rintro rfl
    rw [String.toList_ofList] at h_letter
    obtain ⟨c, h_c, h_lower⟩ := List.mem_map.mp h_letter
    exact toLower_ne_n (h_text c (mem_of_mem_takeSign h_c)) h_lower
  have h_inf := h_word "inf" (by decide)
  have h_infinity := h_word "infinity" (by decide)
  have h_nan := h_word "nan" (by decide)
  simp [readNumber?, h_inf, h_infinity, h_nan]

/-! ## Words -/

section Words

variable {text : String}

/-- A bare word is a number exactly if it is a numeral. -/
theorem isSome_numberOfWord?_iff : (numberOfWord? text).isSome ↔ text.toList ∈ Numeral.grammar := by
  rw [numberOfWord?]
  constructor
  · intro h_some
    split at h_some
    case isTrue h_letters =>
      rw [Bool.and_eq_true, List.all_eq_true] at h_letters
      rw [readNumber?_eq_readDecimal? h_letters.1, readDecimal?, Option.isSome_map] at h_some
      exact Numeral.isSome_ofChars?_iff.mp h_some
    case isFalse => cases h_some
  · intro h_numeral
    have h_numeric := isNumeric_of_mem_grammar h_numeral
    have h_digit := Numeral.exists_isDigit_of_mem_grammar h_numeral
    rw [List.all_eq_true.mpr h_numeric, List.any_eq_true.mpr h_digit,
      readNumber?_eq_readDecimal? h_numeric, readDecimal?]
    exact (Option.isSome_map ..).trans (Numeral.isSome_ofChars?_iff.mpr h_numeral)

theorem ofToken_of_mem_grammar (h_text : text.toList ∈ Numeral.grammar) :
    ∃ x, Atom.ofToken (.bare text) = .number x := by
  obtain ⟨x, h_x⟩ := Option.isSome_iff_exists.mp (isSome_numberOfWord?_iff.mpr h_text)
  exact ⟨x, by rw [Atom.ofToken, h_x]⟩

theorem numberOfWord?_eq_none (h_text : text.toList ∉ Numeral.grammar) : numberOfWord? text = none :=
  Option.not_isSome_iff_eq_none.mp (isSome_numberOfWord?_iff.not.mpr h_text)

/-- The first character is a digit. -/
def StartsWithDigit (text : String) : Prop := ∃ c ∈ text.toList.head?, c.isDigit = true

theorem ofToken_of_startsWithDigit (h_text : text.toList ∉ Numeral.grammar)
    (h_digit : StartsWithDigit text) : Atom.ofToken (.bare text) = .nothing := by
  obtain ⟨c, h_c, h_digit⟩ := h_digit
  rw [Atom.ofToken, numberOfWord?_eq_none h_text]
  simp [Option.mem_def.mp h_c, h_digit]

theorem ofToken_of_name (h_text : text.toList ∉ Numeral.grammar) (h_some : text ≠ "")
    (h_digit : ¬ StartsWithDigit text) : Atom.ofToken (.bare text) = .ofName text := by
  obtain ⟨c, behind, h_letters⟩ :=
    List.exists_cons_of_ne_nil (String.toList_eq_nil_iff.not.mpr h_some)
  have h_c : c.isDigit = false := by
    rw [Bool.eq_false_iff]
    intro h_c
    exact h_digit ⟨c, by rw [h_letters]; rfl, h_c⟩
  rw [Atom.ofToken, numberOfWord?_eq_none h_text]
  simp [h_letters, h_c]

end Words

/-- The words for infinity and for the number that is none are symbols, with a sign or without. -/
theorem ofToken_of_wordForNumber {sign word : String} (h_sign : sign ∈ ["", "+", "-"])
    (h_word : word.toLower ∈ ["inf", "infinity", "nan"]) :
    Atom.ofToken (.bare (sign ++ word)) = .symbol (sign ++ word) := by
  have h_lower : word.toLower.toList = word.toList.map Char.toLower := String.toList_map
  simp only [List.mem_cons, List.not_mem_nil, or_false] at h_sign h_word
  -- the letter that no numeral and no marker has
  obtain ⟨c, h_c, h_n⟩ : ∃ c ∈ (sign ++ word).toList, c.toLower = 'n' := by
    have h_n : 'n' ∈ word.toList.map Char.toLower := by
      rw [← h_lower]
      rcases h_word with h_word | h_word | h_word <;> rw [h_word] <;> decide
    obtain ⟨c, h_c, h_n⟩ := List.mem_map.mp h_n
    rw [String.toList_append]
    exact ⟨c, List.mem_append_right _ h_c, h_n⟩
  have h_other (name : String) (h_name : 'n' ∉ name.toList.map Char.toLower) : sign ++ word ≠ name := by
    rintro rfl
    exact h_name (List.mem_map.mpr ⟨c, h_c, h_n⟩)
  have h_numeral : (sign ++ word).toList ∉ Numeral.grammar := fun h_numeral =>
    toLower_ne_n (isNumeric_of_mem_grammar h_numeral c h_c) h_n
  have h_head : ¬ StartsWithDigit word := by
    rintro ⟨d, h_d, h_digit⟩
    have h_first : d ∈ word.toLower.toList.head? := by
      rw [h_lower, List.head?_map, Option.mem_def.mp h_d, Option.map_some, toLower_of_isDigit h_digit]
      rfl
    rcases h_word with h_word | h_word | h_word <;> rw [h_word] at h_first <;> cases h_first <;>
      exact absurd h_digit (by decide)
  have h_digit : ¬ StartsWithDigit (sign ++ word) := by
    rintro ⟨d, h_d, h_digit⟩
    rw [String.toList_append] at h_d
    rcases h_sign with rfl | rfl | rfl
    · exact h_head ⟨d, h_d, h_digit⟩
    all_goals
      cases h_d
      exact absurd h_digit (by decide)
  rw [ofToken_of_name h_numeral (h_other "" (by decide)) h_digit, Atom.ofName,
    if_neg (h_other "list" (by decide)), if_neg (h_other "lambda" (by decide))]

/-! ## Classification -/

/-- A word without digits is no numeral, and none with a digit in front. -/
theorem ne_of_digit {text name : String} (h_name : name.toList.all (!·.isDigit) = true)
    (h_text : text.toList ∈ Numeral.grammar ∨ StartsWithDigit text) : text ≠ name := by
  rintro rfl
  obtain ⟨c, h_c, h_digit⟩ : ∃ c ∈ text.toList, c.isDigit = true := by
    rcases h_text with h_numeral | ⟨c, h_c, h_digit⟩
    · exact Numeral.exists_isDigit_of_mem_grammar h_numeral
    · exact ⟨c, List.mem_of_mem_head? h_c, h_digit⟩
  have h_none := List.all_eq_true.mp h_name c h_c
  rw [h_digit] at h_none
  cases h_none

/-- What a bare word is: a number if it is a numeral; nothing if it is empty, or no numeral but with a
digit in front; a marker if it has its spelling; a symbol as it stands in every other case, the words for
infinity and for the number that is none included. A quoted word is a string as it stands. -/
theorem words_have_one_kind (text : String) :
    ((∃ x, Atom.ofToken (.bare text) = .number x) ↔ text.toList ∈ Numeral.grammar) ∧
    (Atom.ofToken (.bare text) = .nothing ↔
      text = "" ∨ StartsWithDigit text ∧ text.toList ∉ Numeral.grammar) ∧
    (Atom.ofToken (.bare text) = .list ↔ text = "list") ∧
    (Atom.ofToken (.bare text) = .lambda ↔ text = "lambda") ∧
    (Atom.ofToken (.bare text) = .symbol text ↔
      text ≠ "" ∧ text.toList ∉ Numeral.grammar ∧ ¬ StartsWithDigit text ∧
        text ≠ "list" ∧ text ≠ "lambda") ∧
    (∀ sign ∈ ["", "+", "-"], ∀ word : String, word.toLower ∈ ["inf", "infinity", "nan"] →
      Atom.ofToken (.bare (sign ++ word)) = .symbol (sign ++ word)) ∧
    Atom.ofToken (.quoted text) = .string text := by
  suffices h_bare : _ ∧ _ ∧ _ ∧ _ ∧ _ from
    ⟨h_bare.1, h_bare.2.1, h_bare.2.2.1, h_bare.2.2.2.1, h_bare.2.2.2.2,
      fun _ h_sign _ h_word => ofToken_of_wordForNumber h_sign h_word, rfl⟩
  have h_names (h_digit : text.toList ∈ Numeral.grammar ∨ StartsWithDigit text) :
      text ≠ "" ∧ text ≠ "list" ∧ text ≠ "lambda" :=
    ⟨ne_of_digit (by decide) h_digit, ne_of_digit (by decide) h_digit, ne_of_digit (by decide) h_digit⟩
  by_cases h_numeral : text.toList ∈ Numeral.grammar
  · obtain ⟨x, h_atom⟩ := ofToken_of_mem_grammar h_numeral
    simp [h_atom, h_numeral, h_names (.inl h_numeral)]
  by_cases h_digit : StartsWithDigit text
  · simp [ofToken_of_startsWithDigit h_numeral h_digit, h_numeral, h_digit, h_names (.inr h_digit)]
  -- from here on neither digits nor numerals matter
  simp only [h_numeral, h_digit, iff_false, not_false_eq_true, and_true, true_and, or_false]
  by_cases h_some : text = ""
  · have h_atom : Atom.ofToken (.bare text) = .nothing := by
      rw [h_some]
      decide
    rw [h_atom]
    simp [h_some]
  rw [ofToken_of_name h_numeral h_some h_digit, Atom.ofName]
  by_cases h_list : text = "list"
  · simp [h_list]
  by_cases h_lambda : text = "lambda"
  · simp [h_lambda]
  · simp [h_list, h_lambda, h_some]

/-- A point may end the digits of a numeral, but a mark needs a power behind it. A sign, a point or a mark
makes no numeral without digits. -/
theorem words_near_numerals :
    (∃ x, Atom.ofToken (.bare "1.e5") = .number x) ∧ Atom.ofToken (.bare "1e") = .nothing ∧
    Atom.ofToken (.bare "+.") = .symbol "+." ∧ Atom.ofToken (.bare ".e1") = .symbol ".e1" ∧
    Atom.ofToken (.bare "-1abc") = .symbol "-1abc" ∧ Atom.ofToken (.bare "-InF") = .symbol "-InF" := by
  have h_symbol {word : String} (h_numeral : (Numeral.ofChars? word.toList).isSome = false)
      (h_first : word.toList.head?.any Char.isDigit = false)
      (h_names : word ≠ "" ∧ word ≠ "list" ∧ word ≠ "lambda") :
      Atom.ofToken (.bare word) = .symbol word := by
    refine (words_have_one_kind word).2.2.2.2.1.mpr ⟨h_names.1, ?_, ?_, h_names.2⟩
    · rw [← Numeral.isSome_ofChars?_iff, h_numeral]
      exact Bool.false_ne_true
    · rintro ⟨c, h_c, h_digit⟩
      rw [Option.mem_def.mp h_c, Option.any_some, h_digit] at h_first
      cases h_first
  refine ⟨?_, ?_, ?_, ?_, ?_, ?_⟩
  · exact (words_have_one_kind "1.e5").1.mpr (Numeral.isSome_ofChars?_iff.mp (by decide))
  · refine (words_have_one_kind "1e").2.1.mpr (.inr ⟨⟨'1', rfl, rfl⟩, ?_⟩)
    exact Numeral.isSome_ofChars?_iff.not.mp (by decide)
  · exact h_symbol (by decide) (by decide) (by decide)
  · exact h_symbol (by decide) (by decide) (by decide)
  · exact h_symbol (by decide) (by decide) (by decide)
  · exact h_symbol (by decide) (by decide) (by decide)

end PlotLisp
