import Schemata.Proofs.Document.Yaml.BlockScalar

/-!
# The characters of written documents

Whatever the characters of a text are, the characters of the document that it is written into may
stand in a document.
-/

namespace Schemata.Yaml

namespace Writing

theorem allowed_of_printable {c : Char} (h : isPrintable c = true) : isAllowed c = true := by
  simp only [isPrintable, isAllowed, Bool.or_eq_true, Bool.and_eq_true, beq_iff_eq,
    decide_eq_true_eq] at h ⊢
  omega

theorem allowed_break {c : Char} (h : isBreak c = true) : isAllowed c = true := by
  simp only [isBreak, Bool.or_eq_true, beq_iff_eq] at h
  rcases h with (((rfl | rfl) | rfl) | rfl) | rfl <;> rfl

theorem allowed_hex_digits (count n : Nat) : (hexDigits count n).all isAllowed = true := by
  induction count generalizing n with
  | zero => rfl
  | succ count ih =>
      have hdigit : ∀ m < 16, isAllowed (Nat.digitChar m).toUpper = true := by decide
      have hlast : isAllowed (hexDigit n) = true := hdigit (n % 16) (Nat.mod_lt n (by decide))
      simp [hexDigits, ih, hlast]

/-- Between double quotes every character is written with allowed ones. -/
theorem allowed_escape (c : Char) : (escape c).all isAllowed = true := by
  by_cases hlettered : c ∈ lettered
  · simp only [lettered, List.mem_cons, List.not_mem_nil, or_false] at hlettered
    rcases hlettered with rfl | rfl | rfl | rfl | rfl | rfl | rfl | rfl | rfl | rfl | rfl | rfl |
      rfl | rfl <;> rfl
  · rw [escape_unlettered hlettered]
    split
    · rename_i hplain
      rw [Bool.and_eq_true] at hplain
      simp [allowed_of_printable hplain.1]
    · split
      · exact allowed_hex_digits 2 c.toNat
      split
      · exact allowed_hex_digits 4 c.toNat
      · exact allowed_hex_digits 8 c.toNat

theorem allowed_blanks (indent : Nat) : (blanks indent).all isAllowed = true := by
  rw [List.all_eq_true]
  intro c hc
  rw [List.eq_of_mem_replicate hc]
  rfl

/-- The lines of a text have its characters and blanks. -/
theorem allowed_lines {write : Char → List Char} {text : List Char}
    (h : ∀ c ∈ text, (write c).all isAllowed = true) (indent : Nat) (fresh : Bool) :
    (lines write indent fresh text).all isAllowed = true := by
  induction text generalizing fresh with
  | nil => rfl
  | cons c text ih =>
      have hmore := ih fun d hd => h d (by simp [hd])
      have hc := h c (by simp)
      rw [lines]
      split
      · rename_i hbreak
        rw [List.all_cons, allowed_break hbreak, hmore true]
        rfl
      · rw [List.all_append, List.all_append, hc, hmore false]
        cases fresh with
        | true => simp [allowed_blanks indent]
        | false => rfl

theorem allowed_hints (text : List Char) : (hints text).all isAllowed = true := by
  rw [Block.hints_eq]
  cases Block.startsHidden text <;> cases Block.chomping text <;> rfl

theorem allowed_single_char {c : Char} (h : isAllowed c = true) :
    (singleChar c).all isAllowed = true := by
  rw [singleChar]
  split
  · rfl
  · simp [h]

/-- However a text is written, its written form may stand in a document. -/
theorem allowed_render (indent : Nat) (text : List Char) :
    (render indent text).all isAllowed = true := by
  have hallowed (h : of text ≠ double) : ∀ c ∈ text, isAllowed c = true := fun c hc =>
    allowed_of_printable (List.all_eq_true.mp (printable_of_ne_double h) c hc)
  rw [render]
  cases h : of text with
  | plain => exact List.all_eq_true.mpr (hallowed (by simp [h]))
  | single =>
      have hlines := allowed_lines
        (fun c hc => allowed_single_char (hallowed (by simp [h]) c hc)) indent false
      have hclosing : (closing indent text).all isAllowed = true := by
        rw [closing]
        split
        · exact allowed_blanks indent
        · rfl
      rw [closing] at hclosing
      simp only [List.all_cons, List.all_append, hlines, hclosing]
      rfl
  | double =>
      have hescapes : (text.flatMap escape).all isAllowed = true := by
        rw [List.all_flatMap, List.all_eq_true]
        exact fun c _ => allowed_escape c
      simp only [List.all_cons, List.all_append, hescapes]
      rfl
  | literal =>
      have hself : ∀ c ∈ text, [c].all isAllowed = true := fun c hc => by
        simp [hallowed (by simp [h]) c hc]
      have hlines := allowed_lines hself indent true
      simp only [List.cons_append, List.all_cons, List.all_append, allowed_hints, hlines]
      rfl

end Writing

end Schemata.Yaml
