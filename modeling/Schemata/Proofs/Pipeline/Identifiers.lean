import Mathlib
import Schemata.Pipeline.Role

/-!
# Rows of words

The grammar of identifiers: a `Row` is one or more words joined by double colons. The check of an
identifier takes a text apart at its double colons; the main statement, `is_well_formed_iff`, is that
it accepts the rows and nothing else.
-/

namespace Schemata.Identifier

/-- A letter of ASCII or an underscore. -/
def Starts (c : Char) : Prop :=
  'A' ≤ c ∧ c ≤ 'Z' ∨ 'a' ≤ c ∧ c ≤ 'z' ∨ c = '_'

/-- Such a character or a digit of ASCII. -/
def Continues (c : Char) : Prop :=
  Starts c ∨ '0' ≤ c ∧ c ≤ '9'

/-- A word is not empty and does not start with a digit. -/
inductive Word : List Char → Prop where
  | intro {first : Char} {rest : List Char} (hfirst : Starts first)
      (hrest : ∀ c ∈ rest, Continues c) : Word (first :: rest)

/-- One or more words, joined by double colons. -/
def Row (text : List Char) : Prop :=
  ∃ parts : List (List Char), parts ≠ [] ∧ (∀ part ∈ parts, Word part) ∧
    text = [':', ':'].intercalate parts

theorem is_start_iff {c : Char} : isStart c = true ↔ Starts c := by
  simp only [isStart, Char.isAlpha, Char.isUpper, Char.isLower, Bool.or_eq_true, Bool.and_eq_true,
    decide_eq_true_eq, beq_iff_eq, Starts, or_assoc]
  exact Iff.rfl

theorem is_part_iff {c : Char} : isPart c = true ↔ Continues c := by
  rw [Continues, ← is_start_iff]
  simp only [isPart, isStart, Char.isAlphanum, Char.isDigit, Bool.or_eq_true, Bool.and_eq_true,
    decide_eq_true_eq, or_right_comm]
  exact Iff.rfl

theorem is_word_iff {part : List Char} : isWord part = true ↔ Word part := by
  cases part with
  | nil => exact iff_of_false (by decide) (fun h => nomatch h)
  | cons first rest =>
      simp only [isWord, Bool.and_eq_true, List.all_eq_true, is_start_iff, is_part_iff]
      constructor
      · rintro ⟨hfirst, hrest⟩
        exact .intro hfirst hrest
      · rintro ⟨hfirst, hrest⟩
        exact ⟨hfirst, hrest⟩

theorem starts_ne_colon {c : Char} (h : Starts c) : c ≠ ':' := by
  rintro rfl
  exact absurd (is_start_iff.mpr h) (by decide)

theorem Word.no_colon {part : List Char} (h : Word part) : ':' ∉ part := by
  obtain ⟨hfirst, hrest⟩ := h
  rw [List.mem_cons, not_or]
  refine ⟨(starts_ne_colon hfirst).symm, fun hmem => ?_⟩
  exact absurd (is_part_iff.mpr (hrest ':' hmem)) (by decide)

theorem words_ne_nil (text : List Char) : words text ≠ [] := by
  induction text using words.induct with
  | case1 => simp [words]
  | case2 rest ih => simp [words]
  | case3 c rest hcolons hnone ih => exact absurd hnone ih
  | case4 c rest hcolons first others hrest ih =>
      rw [words.eq_3 c rest hcolons, hrest]
      simp

/-- Nothing is lost where a text is taken apart. -/
theorem intercalate_words (text : List Char) : [':', ':'].intercalate (words text) = text := by
  induction text using words.induct with
  | case1 => simp [words]
  | case2 rest ih => simp [words, List.intercalate_cons_of_ne_nil (words_ne_nil rest), ih]
  | case3 c rest hcolons hnone ih => exact absurd hnone (words_ne_nil rest)
  | case4 c rest hcolons first others hrest ih =>
      rw [hrest] at ih
      rw [words.eq_3 c rest hcolons, hrest]
      cases others with
      | nil => simpa using ih
      | cons second others => simpa [List.intercalate_cons_cons] using ih

/-- A text without colons is not taken apart. -/
theorem words_of_no_colon {part : List Char} (h : ':' ∉ part) : words part = [part] := by
  induction part with
  | nil => rfl
  | cons c rest ih =>
      rw [List.mem_cons, not_or] at h
      rw [words.eq_3 c rest fun _ heq => absurd heq.symm h.1, ih h.2]

/-- A text without colons is taken off at the double colon behind it. -/
theorem words_append {part : List Char} (h : ':' ∉ part) (rest : List Char) :
    words (part ++ ':' :: ':' :: rest) = part :: words rest := by
  induction part with
  | nil => simp [words]
  | cons c others ih =>
      rw [List.mem_cons, not_or] at h
      rw [List.cons_append, words.eq_3 c _ fun _ heq => absurd heq.symm h.1, ih h.2]

/-- Texts without colons are found where they were joined. -/
theorem words_intercalate {parts : List (List Char)} (hparts : parts ≠ [])
    (h : ∀ part ∈ parts, ':' ∉ part) : words ([':', ':'].intercalate parts) = parts := by
  induction parts with
  | nil => exact absurd rfl hparts
  | cons part rest ih =>
      obtain ⟨hpart, hrest⟩ := List.forall_mem_cons.mp h
      cases rest with
      | nil => simpa using words_of_no_colon hpart
      | cons second others =>
          rw [List.intercalate_cons_cons, List.append_assoc]
          exact (words_append hpart _).trans (congrArg (part :: ·) (ih (by simp) hrest))

/-- The identifiers are the rows of words. -/
theorem is_well_formed_iff {text : String} : isWellFormed text = true ↔ Row text.toList := by
  simp only [isWellFormed, List.all_eq_true, is_word_iff]
  constructor
  · intro h
    exact ⟨words text.toList, words_ne_nil _, h, (intercalate_words _).symm⟩
  · rintro ⟨parts, hparts, hwords, htext⟩
    rw [htext, words_intercalate hparts fun part hpart => (hwords part hpart).no_colon]
    exact hwords

end Schemata.Identifier
