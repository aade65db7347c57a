/-!
# Parsing expressions

A grammar of parsing expressions, and what an expression makes of a text. A choice takes the first
alternative that matches and never comes back to another, and a repetition takes as much as it can.
An expression either fails, or it matches a first part of the text and leaves the rest.

A rule yields a pair, of its name and the text that it matched, with the pairs of its parts inside. A
silent rule yields the pairs of its parts only, and an atomic rule no pairs inside. Between the parts
of a rule that is not atomic something may stand that is passed over: `Peg.spaced` puts it there.

`Matches.unique` says that there is at most one outcome. `ActsAs` describes the expressions that look
at a single character.
-/

namespace PlotLisp

/-- Parsing expressions, with the names of the rules. -/
inductive Peg (R : Type) where
  /-- One character of a class. -/
  | character (p : Char → Bool)
  /-- Nothing, and only at the start of the whole text. -/
  | start
  /-- Nothing, and only at its end. -/
  | finish
  | seq (first next : Peg R)
  | choice (first other : Peg R)
  | optional (body : Peg R)
  | star (body : Peg R)
  /-- Nothing, where the body does not match. -/
  | absent (body : Peg R)
  | rule (name : R)

/-- What a rule matched. -/
inductive Pair (R : Type) where
  | mk (rule : R) (text : List Char) (inner : List (Pair R))

namespace Peg

variable {R : Type}

def literal (c : Char) : Peg R := character (· == c)

def any : Peg R := character fun _ => true

/-- Any character but those that the expression matches. -/
def anyBut (body : Peg R) : Peg R := seq (absent body) any

/-- Something may stand between the parts of the expression. -/
def spaced (between : Peg R) : Peg R → Peg R
  | seq first next => seq (spaced between first) (seq between (spaced between next))
  | choice first other => choice (spaced between first) (spaced between other)
  | optional body => optional (spaced between body)
  | star body =>
    optional (seq (spaced between body) (star (seq between (spaced between body))))
  | absent body => absent (spaced between body)
  | other => other

end Peg

/-- Rules by name. -/
structure Grammar (R : Type) where
  body : R → Peg R
  isSilent : R → Bool
  isAtomic : R → Bool
  /-- What may stand between the parts of rules. -/
  between : Peg R

/-- The pairs that were matched and the rest of the text, unless there was no match. -/
abbrev Peg.Outcome (R : Type) : Type := Option (List (Pair R) × List Char)

namespace Grammar

variable {R : Type}

def expansion (grammar : Grammar R) (name : R) : Peg R :=
  if grammar.isAtomic name then grammar.body name
  else Peg.spaced grammar.between (grammar.body name)

/-- What a rule yields where its body matched. -/
def yield (grammar : Grammar R) (name : R) (text : List Char) (matched : List (Pair R) × List Char) :
    List (Pair R) × List Char :=
  let (pairs, rest) := matched
  if grammar.isSilent name then (pairs, rest)
  else
    let inner := if grammar.isAtomic name then [] else pairs
    ([.mk name (text.take (text.length - rest.length)) inner], rest)

end Grammar

/-! ## Outcomes -/

/-- One character of a class. -/
def takeCharacter {R : Type} (p : Char → Bool) : List Char → Peg.Outcome R
  | c :: rest => if p c then some ([], rest) else none
  | [] => none

/-- In the course of a whole text, the expression has this outcome for what is left of it. -/
inductive Matches {R : Type} (grammar : Grammar R) (whole : List Char) :
    Peg R → List Char → Peg.Outcome R → Prop where
  | character {p text} : Matches grammar whole (.character p) text (takeCharacter p text)
  | start {text} :
      Matches grammar whole .start text (if text.length = whole.length then some ([], text) else none)
  | finish {text} : Matches grammar whole .finish text (if text = [] then some ([], text) else none)
  | seqFails {first next text} (h_first : Matches grammar whole first text none) :
      Matches grammar whole (.seq first next) text none
  | seq {first next text pairs middle outcome}
      (h_first : Matches grammar whole first text (some (pairs, middle)))
      (h_next : Matches grammar whole next middle outcome) :
      Matches grammar whole (.seq first next) text
        (outcome.map fun (others, rest) => (pairs ++ others, rest))
  | choice {first other text matched} (h_first : Matches grammar whole first text (some matched)) :
      Matches grammar whole (.choice first other) text (some matched)
  | choiceOther {first other text outcome} (h_first : Matches grammar whole first text none)
      (h_other : Matches grammar whole other text outcome) :
      Matches grammar whole (.choice first other) text outcome
  | optional {body text outcome} (h_body : Matches grammar whole body text outcome) :
      Matches grammar whole (.optional body) text (some (outcome.getD ([], text)))
  | starDone {body text} (h_body : Matches grammar whole body text none) :
      Matches grammar whole (.star body) text (some ([], text))
  | star {body text pairs middle others rest}
      (h_body : Matches grammar whole body text (some (pairs, middle)))
      (h_more : Matches grammar whole (.star body) middle (some (others, rest))) :
      Matches grammar whole (.star body) text (some (pairs ++ others, rest))
  | absent {body text} (h_body : Matches grammar whole body text none) :
      Matches grammar whole (.absent body) text (some ([], text))
  | absentFails {body text matched} (h_body : Matches grammar whole body text (some matched)) :
      Matches grammar whole (.absent body) text none
  | rule {name text outcome} (h_body : Matches grammar whole (grammar.expansion name) text outcome) :
      Matches grammar whole (.rule name) text (outcome.map (grammar.yield name text))

section Matching

variable {R : Type} {grammar : Grammar R} {whole : List Char}

/-- An expression has one outcome at most. -/
theorem Matches.unique {e : Peg R} {text : List Char} {outcome other : Peg.Outcome R}
    (h_outcome : Matches grammar whole e text outcome) (h_other : Matches grammar whole e text other) :
    outcome = other := by
  -- the premises of the two derivations have the same outcomes, so that they end in the same step
  induction h_outcome generalizing other with
  | character | start | finish =>
    cases h_other
    rfl
  | seqFails _ ih =>
    cases h_other with
    | seqFails => rfl
    | seq h_first => cases ih h_first
  | seq _ _ ih_first ih_next =>
    cases h_other with
    | seqFails h_first => cases ih_first h_first
    | seq h_first h_next =>
      cases ih_first h_first
      rw [ih_next h_next]
  | choice _ ih =>
    cases h_other with
    | choice h_first => exact ih h_first
    | choiceOther h_first => cases ih h_first
  | choiceOther _ _ ih_first ih_other =>
    cases h_other with
    | choice h_first => cases ih_first h_first
    | choiceOther _ h_other => exact ih_other h_other
  | absent _ ih =>
    cases h_other with
    | absent => rfl
    | absentFails h_body => cases ih h_body
  | absentFails _ ih =>
    cases h_other with
    | absent h_body => cases ih h_body
    | absentFails => rfl
  | optional _ ih | rule _ ih =>
    cases h_other
    rename_i h_body
    rw [ih h_body]
  | starDone _ ih =>
    cases h_other with
    | starDone => rfl
    | star h_body => cases ih h_body
  | star _ _ ih_body ih_more =>
    cases h_other with
    | starDone h_body => cases ih_body h_body
    | star h_body h_more =>
      cases ih_body h_body
      cases ih_more h_more
      rfl

/-! ## Rules -/

theorem Matches.ruleFails {name : R} {text : List Char}
    (h_body : Matches grammar whole (grammar.expansion name) text none) :
    Matches grammar whole (.rule name) text none := .rule h_body

/-- A silent rule has the outcome of its body. -/
theorem Matches.silent {name : R} {text : List Char} {outcome : Peg.Outcome R}
    (h_silent : grammar.isSilent name = true)
    (h_body : Matches grammar whole (grammar.expansion name) text outcome) :
    Matches grammar whole (.rule name) text outcome := by
  have h_rule := Matches.rule h_body
  have h_yield : grammar.yield name text = id := by
    funext ⟨pairs, rest⟩
    rw [Grammar.yield, if_pos h_silent]
    rfl
  rwa [h_yield, Option.map_id] at h_rule

/-- Any other rule yields one pair, with the text that its body matched. -/
theorem Matches.loud {name : R} {letters rest : List Char} {pairs : List (Pair R)}
    (h_silent : grammar.isSilent name = false)
    (h_body : Matches grammar whole (grammar.expansion name) (letters ++ rest) (some (pairs, rest))) :
    Matches grammar whole (.rule name) (letters ++ rest)
      (some ([.mk name letters (if grammar.isAtomic name then [] else pairs)], rest)) := by
  have h_rule := Matches.rule h_body
  have h_text : (letters ++ rest).take ((letters ++ rest).length - rest.length) = letters := by
    rw [List.length_append, Nat.add_sub_cancel, List.take_left]
  rwa [Option.map_some, Grammar.yield, h_silent, h_text] at h_rule

/-! ## Expressions that look at one character -/

/-- The expression matches one character of the class. -/
def ActsAs (grammar : Grammar R) (whole : List Char) (e : Peg R) (p : Char → Bool) : Prop :=
  ∀ text, Matches grammar whole e text (takeCharacter p text)

namespace ActsAs

variable {e other : Peg R} {p q : Char → Bool}

theorem matches_cons (h_e : ActsAs grammar whole e p) {c : Char} {rest : List Char}
    (h_c : p c = true) : Matches grammar whole e (c :: rest) (some ([], rest)) := by
  have h_text := h_e (c :: rest)
  rwa [takeCharacter, if_pos h_c] at h_text

theorem fails (h_e : ActsAs grammar whole e p) {text : List Char}
    (h_text : ∀ c ∈ text.head?, p c = false) : Matches grammar whole e text none := by
  have h_none := h_e text
  rcases text with _ | ⟨c, rest⟩
  · exact h_none
  · rwa [takeCharacter, if_neg (Bool.eq_false_iff.mp (h_text c rfl))] at h_none

theorem literal (c : Char) : ActsAs grammar whole (.literal c) (· == c) := fun _ => .character

theorem choice (h_e : ActsAs grammar whole e p) (h_other : ActsAs grammar whole other q) :
    ActsAs grammar whole (.choice e other) fun c => p c || q c := by
  intro text
  rcases text with _ | ⟨c, rest⟩
  · exact .choiceOther (h_e []) (h_other [])
  by_cases h_p : p c = true
  · -- the first alternative matches, and the other is not tried
    have h_taken : takeCharacter (fun c => p c || q c) (c :: rest)
        = (some ([], rest) : Peg.Outcome R) := if_pos (by simp [h_p])
    rw [h_taken]
    exact .choice (h_e.matches_cons h_p)
  · rw [Bool.not_eq_true] at h_p
    have h_taken : takeCharacter (fun c => p c || q c) (c :: rest)
        = (takeCharacter q (c :: rest) : Peg.Outcome R) := by simp [takeCharacter, h_p]
    rw [h_taken]
    exact .choiceOther (h_e.fails (by simpa using h_p)) (h_other _)

theorem anyBut (h_e : ActsAs grammar whole e p) :
    ActsAs grammar whole (.anyBut e) fun c => !p c := by
  intro text
  rcases text with _ | ⟨c, rest⟩
  · exact .seq (.absent (h_e [])) .character
  by_cases h_p : p c = true
  · have h_taken : takeCharacter (fun c => !p c) (c :: rest) = (none : Peg.Outcome R) :=
      if_neg (by simp [h_p])
    rw [h_taken]
    exact .seqFails (.absentFails (h_e.matches_cons h_p))
  · rw [Bool.not_eq_true] at h_p
    have h_taken : takeCharacter (fun c => !p c) (c :: rest) = (some ([], rest) : Peg.Outcome R) :=
      if_pos (by simp [h_p])
    rw [h_taken]
    exact .seq (.absent (h_e.fails (by simpa using h_p))) .character

/-- A silent rule acts as its body. -/
theorem rule {name : R} (h_body : ActsAs grammar whole (grammar.expansion name) p)
    (h_silent : grammar.isSilent name = true) : ActsAs grammar whole (.rule name) p :=
  fun text => .silent h_silent (h_body text)

/-- A repetition takes all characters of the class that come first. -/
theorem star (h_e : ActsAs grammar whole e p) {letters rest : List Char}
    (h_letters : ∀ c ∈ letters, p c = true) (h_end : ∀ c ∈ rest.head?, p c = false) :
    Matches grammar whole (.star e) (letters ++ rest) (some ([], rest)) := by
  induction letters with
  | nil => exact .starDone (h_e.fails h_end)
  | cons c letters ih =>
    obtain ⟨h_c, h_rest⟩ := List.forall_mem_cons.mp h_letters
    exact .star (h_e.matches_cons h_c) (ih h_rest)

end ActsAs

end Matching

end PlotLisp
