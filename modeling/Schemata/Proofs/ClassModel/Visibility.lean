import Mathlib
import Schemata.ClassModel.Visibility

/-!
# Texts that name a visibility

A text spells a visibility when it is the visibility's name in any case of ASCII letters, with blanks
around it that are of any kind and number, `Visibility.Spells`. The main statement is that these are
the texts that are taken for it, `of_text_eq_some_iff`.
-/

namespace Schemata

namespace Text

/-- Blanks in front of a text that does not start with one are dropped, and nothing else. -/
theorem trim_start_append {gap rest : List Char} (hgap : ∀ c ∈ gap, isBlank c = true)
    (hrest : ∀ c ∈ rest.head?, isBlank c = false) : trimStart (gap ++ rest) = rest := by
  rw [trimStart, List.dropWhile_append_of_pos hgap]
  cases rest with
  | nil => rfl
  | cons first others => exact trimStart_of_not_blank (hrest first rfl)

theorem trim_start_split (text : List Char) :
    ∃ gap, text = gap ++ trimStart text ∧ ∀ c ∈ gap, isBlank c = true :=
  ⟨text.takeWhile isBlank, List.takeWhile_append_dropWhile.symm, fun _ hc =>
    List.mem_takeWhile_imp hc⟩

/-- What trimming drops are blanks at both ends. -/
theorem trim_split (text : List Char) :
    ∃ before after, text = before ++ (trim text ++ after) ∧ (∀ c ∈ before, isBlank c = true) ∧
      ∀ c ∈ after, isBlank c = true := by
  obtain ⟨before, hbefore, hblank⟩ := trim_start_split text
  obtain ⟨after, hafter, hblankAfter⟩ := trim_start_split (trimStart text).reverse
  refine ⟨before, after.reverse, ?_, hblank, fun c hc => hblankAfter c (List.mem_reverse.mp hc)⟩
  have hrest : trimStart text = trim text ++ after.reverse := by
    rw [trim, ← List.reverse_append, ← hafter, List.reverse_reverse]
  rw [← hrest]
  exact hbefore

/-- A word between blanks is what trimming leaves. -/
theorem trim_between {before word after : List Char} (hbefore : ∀ c ∈ before, isBlank c = true)
    (hafter : ∀ c ∈ after, isBlank c = true) (hword : ∀ c ∈ word, isBlank c = false)
    (hnonempty : word ≠ []) : trim (before ++ (word ++ after)) = word := by
  have hfirst : ∀ c ∈ (word ++ after).head?, isBlank c = false := by
    obtain ⟨first, others, rfl⟩ := List.exists_cons_of_ne_nil hnonempty
    rintro c ⟨⟩
    exact hword first List.mem_cons_self
  have hlast : ∀ c ∈ word.reverse.head?, isBlank c = false := fun c hc =>
    hword c (List.mem_reverse.mp (List.mem_of_mem_head? hc))
  have hgap : ∀ c ∈ after.reverse, isBlank c = true := fun c hc =>
    hafter c (List.mem_reverse.mp hc)
  rw [trim, trim_start_append hbefore hfirst, List.reverse_append, trim_start_append hgap hlast,
    List.reverse_reverse]

/-- No blank is an upper case letter. -/
theorem to_lower_of_blank {c : Char} (h : isBlank c = true) : c.toLower = c := by
  refine Char.toLower_eq_of_not_isUpper fun hupper => ?_
  have hcode : 65 ≤ c.toNat ∧ c.toNat ≤ 90 := by
    simpa [Char.isUpper, UInt32.le_iff_toNat_le] using hupper
  simp only [isBlank, Bool.or_eq_true, Bool.and_eq_true, decide_eq_true_eq, beq_iff_eq] at h
  omega

end Text

namespace Visibility

/-- Whether a text is the name of a visibility, in any case and with blanks around it. -/
def Spells (text : String) (visibility : Visibility) : Prop :=
  ∃ before word after, text.toList = before ++ (word ++ after) ∧
    (∀ c ∈ before, Text.isBlank c = true) ∧ (∀ c ∈ after, Text.isBlank c = true) ∧
    word.map Char.toLower = visibility.name.toList

theorem of_text_eq_some_iff_trim {text : String} {visibility : Visibility} :
    ofText? text = some visibility ↔
      (Text.trim text.toList).map Char.toLower = visibility.name.toList := by
  have hword : (Text.trim text.toList).map Char.toLower = visibility.name.toList ↔
      String.ofList ((Text.trim text.toList).map Char.toLower) = visibility.name := by
    rw [← String.toList_inj, String.toList_ofList]
  rw [hword, ofText?]
  generalize String.ofList ((Text.trim text.toList).map Char.toLower) = word
  constructor
  · intro h
    grind [name]
  · rintro rfl
    cases visibility <;> rfl

/-- The names have no blanks, so no letter of a word that lowers to one is a blank. -/
theorem not_blank_of_lower {word : List Char} {visibility : Visibility}
    (h : word.map Char.toLower = visibility.name.toList) : ∀ c ∈ word, Text.isBlank c = false := by
  have hname : ∀ c ∈ visibility.name.toList, Text.isBlank c = false := by
    cases visibility <;> simp [name, Text.isBlank]
  intro c hc
  cases hblank : Text.isBlank c with
  | false => rfl
  | true =>
      have hmem : c.toLower ∈ visibility.name.toList := h ▸ List.mem_map_of_mem hc
      rw [Text.to_lower_of_blank hblank] at hmem
      exact hblank.symm.trans (hname c hmem)

/-- The texts that are taken for a visibility are those that spell it. -/
theorem of_text_eq_some_iff {text : String} {visibility : Visibility} :
    ofText? text = some visibility ↔ Spells text visibility := by
  rw [of_text_eq_some_iff_trim]
  constructor
  · intro h
    obtain ⟨before, after, htext, hbefore, hafter⟩ := Text.trim_split text.toList
    exact ⟨before, _, after, htext, hbefore, hafter, h⟩
  · rintro ⟨before, word, after, htext, hbefore, hafter, hword⟩
    have hnonempty : word ≠ [] := by
      rintro rfl
      cases visibility <;> exact absurd hword (by decide)
    rw [htext, Text.trim_between hbefore hafter (not_blank_of_lower hword) hnonempty]
    exact hword

/-- A tabulator and a no-break space are blanks like any other. -/
example : Spells "\t\u00a0PRIVATE " .private :=
  of_text_eq_some_iff.mp (by decide)

theorem of_text_eq_none_iff {text : String} :
    ofText? text = none ↔ ∀ visibility, ¬Spells text visibility := by
  simp only [← of_text_eq_some_iff, Option.eq_none_iff_forall_ne_some, ne_eq]

end Visibility

end Schemata
