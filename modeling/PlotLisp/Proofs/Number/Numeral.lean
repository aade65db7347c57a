import Mathlib.Computability.Language
import Mathlib.Data.List.TakeWhile
import PlotLisp.Number.Numeral

/-!
# The grammar of numerals

A numeral is written

    sign? (digits+ (. digits*)? | . digits+) ((e | E) sign? digits+)?

with the ten digits of ASCII. `Numeral.grammar` is the language of these texts, and a text is read as a
numeral exactly if it is one of them (`Numeral.isSome_ofChars?_iff`). Each part of the reader takes as
many characters as it can, and none of them could belong to the part behind it: a sign begins nothing
else, and what follows the digits and the point begins with a mark.
-/

namespace PlotLisp

open scoped Computability

/-! ## Texts made of parts -/

/-- A single character of a kind. -/
def letter (kind : Char → Bool) : Language Char := {text | ∃ c, kind c = true ∧ text = [c]}

/-- A part that may be missing. -/
def perhaps (part : Language Char) : Language Char := 1 + part

section Parts

variable {kind : Char → Bool} {part rest : Language Char} {text : List Char}

theorem mem_letter_mul_iff :
    text ∈ letter kind * rest ↔ ∃ c behind, text = c :: behind ∧ kind c = true ∧ behind ∈ rest := by
  rw [Language.mem_mul]
  constructor
  · rintro ⟨_, ⟨c, h_c, rfl⟩, behind, h_behind, rfl⟩
    exact ⟨c, behind, rfl, h_c, h_behind⟩
  · rintro ⟨c, behind, rfl, h_c, h_behind⟩
    exact ⟨[c], ⟨c, h_c, rfl⟩, behind, h_behind, rfl⟩

theorem mem_perhaps_mul_iff : text ∈ perhaps part * rest ↔ text ∈ rest ∨ text ∈ part * rest := by
  rw [perhaps, add_mul, one_mul, Language.mem_add]

theorem mem_kstar_letter_iff : text ∈ (letter kind)∗ ↔ ∀ c ∈ text, kind c = true := by
  constructor
  · intro h_text c h_c
    obtain ⟨words, rfl, h_words⟩ := Language.mem_kstar.mp h_text
    obtain ⟨word, h_word, h_c⟩ := List.mem_flatten.mp h_c
    obtain ⟨d, h_d, rfl⟩ := h_words word h_word
    rwa [List.mem_singleton.mp h_c]
  · intro h_text
    refine Language.mem_kstar.mpr ⟨text.map ([·]), (List.flatMap_singleton' text).symm, ?_⟩
    intro word h_word
    obtain ⟨c, h_c, rfl⟩ := List.mem_map.mp h_word
    exact ⟨c, h_text c h_c, rfl⟩

end Parts

namespace Numeral

/-! ## The grammar -/

def isSign (c : Char) : Bool := c == '+' || c == '-'

def digits : Language Char := letter Char.isDigit * (letter Char.isDigit)∗

def sign : Language Char := letter isSign

def point : Language Char := letter (· == '.')

/-- Digits with at most one point among or beside them. -/
def significand : Language Char :=
  digits * perhaps (point * (letter Char.isDigit)∗) + point * digits

/-- A power of ten behind its mark. -/
def power : Language Char := letter (fun c => c == 'e' || c == 'E') * perhaps sign * digits

def grammar : Language Char := perhaps sign * significand * perhaps power

theorem mem_digits_iff {text : List Char} :
    text ∈ digits ↔ text ≠ [] ∧ ∀ c ∈ text, c.isDigit = true := by
  rw [digits, mem_letter_mul_iff]
  constructor
  · rintro ⟨c, behind, rfl, h_c, h_behind⟩
    exact ⟨List.cons_ne_nil c behind,
      List.forall_mem_cons.mpr ⟨h_c, mem_kstar_letter_iff.mp h_behind⟩⟩
  · rintro ⟨h_some, h_text⟩
    obtain ⟨c, behind, rfl⟩ := List.exists_cons_of_ne_nil h_some
    obtain ⟨h_c, h_behind⟩ := List.forall_mem_cons.mp h_text
    exact ⟨c, behind, rfl, h_c, mem_kstar_letter_iff.mpr h_behind⟩

/-! ## Signs -/

section Signs

variable {rest : Language Char} {text : List Char}

/-- What stands behind a sign, or the whole text, where no sign can begin what has to follow. -/
theorem mem_perhaps_sign_mul_iff (h_rest : ∀ word ∈ rest, ∀ c ∈ word.head?, isSign c = false) :
    text ∈ perhaps sign * rest ↔ (takeSign text).2 ∈ rest := by
  rw [mem_perhaps_mul_iff, sign, mem_letter_mul_iff]
  cases text with
  | nil => simp [takeSign]
  | cons c behind =>
    by_cases h_sign : isSign c = true
    · have h_split : (takeSign (c :: behind)).2 = behind := by
        rcases (Bool.or_eq_true _ _).mp h_sign with h_c | h_c <;> rw [eq_of_beq h_c] <;> rfl
      have h_unsigned : c :: behind ∉ rest := by
        intro h_word
        rw [h_rest _ h_word c rfl] at h_sign
        cases h_sign
      rw [h_split]
      constructor
      · rintro (h_word | ⟨_, _, h_text, -, h_behind⟩)
        · exact absurd h_word h_unsigned
        · cases h_text
          exact h_behind
      · intro h_behind
        exact .inr ⟨c, behind, rfl, h_sign, h_behind⟩
    · have h_split : (takeSign (c :: behind)).2 = c :: behind := by
        unfold takeSign
        split
        case h_1 h_text => cases h_text; exact absurd rfl h_sign
        case h_2 h_text => cases h_text; exact absurd rfl h_sign
        case h_3 => rfl
      rw [h_split]
      constructor
      · rintro (h_word | ⟨_, _, h_text, h_c, -⟩)
        · exact h_word
        · cases h_text
          exact absurd h_c h_sign
      · exact .inl

end Signs

/-! ## Powers of ten -/

theorem head_of_mem_digits {text : List Char} (h_text : text ∈ digits) :
    ∀ c ∈ text.head?, c.isDigit = true :=
  fun c h_c => (mem_digits_iff.mp h_text).2 c (List.mem_of_mem_head? h_c)

theorem isSign_eq_false_of_isDigit {c : Char} (h_digit : c.isDigit = true) : isSign c = false := by
  rw [Bool.eq_false_iff]
  intro h_sign
  rcases (Bool.or_eq_true _ _).mp h_sign with h_c | h_c <;> rw [eq_of_beq h_c] at h_digit <;>
    exact absurd h_digit (by decide)

theorem isSome_powerOfTen?_iff {text : List Char} :
    (powerOfTen? text).isSome ↔ text ∈ perhaps power := by
  have h_unsigned : ∀ word ∈ digits, ∀ c ∈ word.head?, isSign c = false :=
    fun word h_word c h_c => isSign_eq_false_of_isDigit (head_of_mem_digits h_word c h_c)
  rw [← mul_one (perhaps power), mem_perhaps_mul_iff, Language.mem_one, mul_one, power, mul_assoc,
    mem_letter_mul_iff]
  cases text with
  | nil => simp [powerOfTen?]
  | cons mark rest =>
    simp only [powerOfTen?, List.cons_ne_nil, false_or, List.cons.injEq,
      mem_perhaps_sign_mul_iff h_unsigned, mem_digits_iff]
    simp only [Bool.and_eq_true, Bool.not_eq_true', List.isEmpty_eq_false_iff, List.all_eq_true,
      Option.isSome_ite]
    constructor
    · rintro ⟨⟨h_mark, h_some⟩, h_digits⟩
      exact ⟨mark, rest, ⟨rfl, rfl⟩, h_mark, h_some, h_digits⟩
    · rintro ⟨_, _, ⟨rfl, rfl⟩, h_mark, h_some, h_digits⟩
      exact ⟨⟨h_mark, h_some⟩, h_digits⟩

/-! ## Digits and points -/

section Significands

variable {rest : Language Char} {text : List Char}

/-- The digits in front are all taken, if no digit follows them. -/
theorem span_digits {front behind : List Char} (h_front : ∀ c ∈ front, c.isDigit = true)
    (h_behind : ∀ c ∈ behind.head?, c.isDigit = false) :
    (front ++ behind).takeWhile Char.isDigit = front ∧
      (front ++ behind).dropWhile Char.isDigit = behind := by
  rw [List.takeWhile_append_of_pos h_front, List.dropWhile_append_of_pos h_front]
  cases behind with
  | nil => exact ⟨List.append_nil front, rfl⟩
  | cons c behind =>
    rw [List.takeWhile_cons, List.dropWhile_cons, h_behind c rfl]
    exact ⟨List.append_nil front, rfl⟩

theorem takeFraction_of_ne_point {text : List Char} (h_text : ∀ c ∈ text.head?, c ≠ '.') :
    takeFraction text = ([], text) := by
  unfold takeFraction
  split
  · exact absurd rfl (h_text '.' rfl)
  · rfl

theorem takeFraction_of_point {fraction behind : List Char}
    (h_fraction : ∀ c ∈ fraction, c.isDigit = true) (h_behind : ∀ c ∈ behind.head?, c.isDigit = false) :
    takeFraction ('.' :: (fraction ++ behind)) = (fraction, behind) := by
  obtain ⟨h_take, h_drop⟩ := span_digits h_fraction h_behind
  rw [takeFraction, h_take, h_drop]

/-- A significand has digits in front, and maybe a point and digits behind it. Not both of these rows of
digits are missing. -/
theorem mem_significand_mul_iff_parts :
    text ∈ significand * rest ↔ ∃ front behind, text = front ++ behind ∧
      (∀ c ∈ front, c.isDigit = true) ∧
      (front ≠ [] ∧ behind ∈ rest ∨
        ∃ fraction last, behind = '.' :: (fraction ++ last) ∧ (∀ c ∈ fraction, c.isDigit = true) ∧
          ¬ (front = [] ∧ fraction = []) ∧ last ∈ rest) := by
  rw [significand, add_mul, Language.mem_add, mul_assoc, mul_assoc]
  constructor
  · rintro (h_text | h_text)
    · obtain ⟨front, h_front, behind, h_behind, rfl⟩ := Language.mem_mul.mp h_text
      obtain ⟨h_some, h_front⟩ := mem_digits_iff.mp h_front
      refine ⟨front, behind, rfl, h_front, ?_⟩
      rw [mem_perhaps_mul_iff, mul_assoc, point, mem_letter_mul_iff] at h_behind
      rcases h_behind with h_behind | ⟨c, tail, rfl, h_point, h_tail⟩
      · exact .inl ⟨h_some, h_behind⟩
      · obtain ⟨fraction, h_fraction, last, h_last, rfl⟩ := Language.mem_mul.mp h_tail
        cases eq_of_beq h_point
        exact .inr ⟨fraction, last, rfl, mem_kstar_letter_iff.mp h_fraction,
          fun h_none => h_some h_none.1, h_last⟩
    · rw [point, mem_letter_mul_iff] at h_text
      obtain ⟨c, tail, rfl, h_point, h_tail⟩ := h_text
      obtain ⟨fraction, h_fraction, last, h_last, rfl⟩ := Language.mem_mul.mp h_tail
      obtain ⟨h_some, h_fraction⟩ := mem_digits_iff.mp h_fraction
      cases eq_of_beq h_point
      exact ⟨[], _, rfl, List.forall_mem_nil _, .inr ⟨fraction, last, rfl, h_fraction,
        fun h_none => h_some h_none.2, h_last⟩⟩
  · rintro ⟨front, behind, rfl, h_front, ⟨h_some, h_behind⟩ | ⟨fraction, last, rfl, h_fraction, h_some,
      h_last⟩⟩
    · exact .inl (Language.append_mem_mul (mem_digits_iff.mpr ⟨h_some, h_front⟩)
        (mem_perhaps_mul_iff.mpr (.inl h_behind)))
    · by_cases h_front_nil : front = []
      · have h_fraction_some : fraction ≠ [] := fun h_nil => h_some ⟨h_front_nil, h_nil⟩
        subst h_front_nil
        exact .inr (mem_letter_mul_iff.mpr ⟨'.', _, rfl, rfl,
          Language.append_mem_mul (mem_digits_iff.mpr ⟨h_fraction_some, h_fraction⟩) h_last⟩)
      · refine .inl (Language.append_mem_mul (mem_digits_iff.mpr ⟨h_front_nil, h_front⟩)
          (mem_perhaps_mul_iff.mpr (.inr ?_)))
        rw [mul_assoc]
        exact mem_letter_mul_iff.mpr ⟨'.', _, rfl, rfl,
          Language.append_mem_mul (mem_kstar_letter_iff.mpr h_fraction) h_last⟩

/-- What the reader takes for the two rows of digits, and what it leaves for what has to follow. -/
theorem mem_significand_mul_iff
    (h_rest : ∀ word ∈ rest, ∀ c ∈ word.head?, c.isDigit = false ∧ c ≠ '.') :
    text ∈ significand * rest ↔
      ¬ (text.takeWhile Char.isDigit = [] ∧
        (takeFraction (text.dropWhile Char.isDigit)).1 = []) ∧
      (takeFraction (text.dropWhile Char.isDigit)).2 ∈ rest := by
  have h_ends {word : List Char} (h_word : word ∈ rest) : ∀ c ∈ word.head?, c.isDigit = false :=
    fun c h_c => (h_rest word h_word c h_c).1
  rw [mem_significand_mul_iff_parts]
  constructor
  · rintro ⟨front, behind, rfl, h_front, ⟨h_some, h_behind⟩ | ⟨fraction, last, rfl, h_fraction, h_some,
      h_last⟩⟩
    · obtain ⟨h_take, h_drop⟩ := span_digits h_front (h_ends h_behind)
      rw [h_take, h_drop, takeFraction_of_ne_point fun c h_c => (h_rest behind h_behind c h_c).2]
      exact ⟨fun h_none => h_some h_none.1, h_behind⟩
    · have h_point : ∀ c ∈ ('.' :: (fraction ++ last)).head?, c.isDigit = false := by
        rintro _ ⟨⟩
        rfl
      obtain ⟨h_take, h_drop⟩ := span_digits h_front h_point
      rw [h_take, h_drop, takeFraction_of_point h_fraction (h_ends h_last)]
      exact ⟨h_some, h_last⟩
  · rintro ⟨h_some, h_last⟩
    refine ⟨text.takeWhile Char.isDigit, text.dropWhile Char.isDigit,
      List.takeWhile_append_dropWhile.symm, fun c h_c => List.mem_takeWhile_imp h_c, ?_⟩
    by_cases h_point : ∃ tail, text.dropWhile Char.isDigit = '.' :: tail
    · obtain ⟨tail, h_tail⟩ := h_point
      rw [h_tail, takeFraction] at h_some h_last
      refine .inr ⟨tail.takeWhile Char.isDigit, tail.dropWhile Char.isDigit, ?_,
        fun c h_c => List.mem_takeWhile_imp h_c, h_some, h_last⟩
      rw [h_tail, List.takeWhile_append_dropWhile]
    · have h_no_point : ∀ c ∈ (text.dropWhile Char.isDigit).head?, c ≠ '.' := by
        rintro c h_c rfl
        exact h_point (List.head?_eq_some_iff.mp h_c)
      rw [takeFraction_of_ne_point h_no_point] at h_some h_last
      exact .inl ⟨fun h_nil => h_some ⟨h_nil, rfl⟩, h_last⟩

end Significands

/-! ## The reader -/

theorem head_of_mem_perhaps_power {text : List Char} (h_text : text ∈ perhaps power) :
    ∀ c ∈ text.head?, c.isDigit = false ∧ c ≠ '.' := by
  rw [← mul_one (perhaps power), mem_perhaps_mul_iff, Language.mem_one, mul_one, power, mul_assoc,
    mem_letter_mul_iff] at h_text
  rcases h_text with rfl | ⟨mark, behind, rfl, h_mark, -⟩
  · rintro _ ⟨⟩
  · rintro _ ⟨⟩
    rcases (Bool.or_eq_true _ _).mp h_mark with h_mark | h_mark <;> rw [eq_of_beq h_mark] <;> decide

/-- A digit or a point begins a significand, and no sign. -/
theorem head_of_mem_significand_mul {rest : Language Char} {text : List Char}
    (h_text : text ∈ significand * rest) : ∀ c ∈ text.head?, isSign c = false := by
  obtain ⟨front, behind, rfl, h_front, h_behind⟩ := mem_significand_mul_iff_parts.mp h_text
  cases front with
  | cons d front =>
    rintro _ ⟨⟩
    exact isSign_eq_false_of_isDigit (h_front d List.mem_cons_self)
  | nil =>
    rcases h_behind with ⟨h_some, -⟩ | ⟨fraction, last, rfl, -⟩
    · exact absurd rfl h_some
    · rintro _ ⟨⟩
      rfl

/-- A text is read as a numeral exactly if it is written as the grammar says. -/
theorem isSome_ofChars?_iff {text : List Char} : (ofChars? text).isSome ↔ text ∈ grammar := by
  rw [grammar, mul_assoc, mem_perhaps_sign_mul_iff fun _ h_word => head_of_mem_significand_mul h_word,
    mem_significand_mul_iff fun _ h_word => head_of_mem_perhaps_power h_word,
    ← isSome_powerOfTen?_iff, ofChars?]
  simp only [Bool.and_eq_true, List.isEmpty_iff]
  split
  case isTrue h_none => exact iff_of_false nofun fun h_text => h_text.1 h_none
  case isFalse h_some =>
    rw [Option.isSome_map]
    exact ⟨fun h_power => ⟨h_some, h_power⟩, And.right⟩

/-- Every numeral has a digit. -/
theorem exists_isDigit_of_mem_grammar {text : List Char} (h_text : text ∈ grammar) :
    ∃ c ∈ text, c.isDigit = true := by
  rw [grammar, mul_assoc, Language.mem_mul] at h_text
  obtain ⟨signs, -, unsigned, h_unsigned, rfl⟩ := h_text
  obtain ⟨front, behind, rfl, h_front, h_behind⟩ := mem_significand_mul_iff_parts.mp h_unsigned
  cases front with
  | cons d front => exact ⟨d, by simp, h_front d List.mem_cons_self⟩
  | nil =>
    rcases h_behind with ⟨h_some, -⟩ | ⟨fraction, last, rfl, h_fraction, h_some, -⟩
    · exact absurd rfl h_some
    · obtain ⟨d, fraction, rfl⟩ := List.exists_cons_of_ne_nil fun h_nil => h_some ⟨rfl, h_nil⟩
      exact ⟨d, by simp, h_fraction d List.mem_cons_self⟩

end Numeral

end PlotLisp
