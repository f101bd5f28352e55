import Mathlib.Data.List.Basic
import Schemata.Proofs.Document.Yaml.Cursor

/-!
# The writing of texts

What the analysis of a text says about the way it is written: how it splits into runs and white
space, where its lines are indented, and which characters are escaped.
-/

namespace Schemata.Yaml.Writing

/-- A text is a run up to white space, then white space and a further text, or nothing more. -/
theorem exists_run (p : Char → Bool) (text : List Char) :
    ∃ run gap more, text = run ++ (gap ++ more) ∧ (∀ c ∈ run, p c = false) ∧
      (∀ c ∈ gap, p c = true) ∧ (∀ c ∈ more.head?, p c = false) ∧ (gap = [] → more = []) := by
  induction text with
  | nil => exact ⟨[], [], [], by simp⟩
  | cons c text ih =>
      obtain ⟨run, gap, more, rfl, hrun, hgap, hmore, hnone⟩ := ih
      cases hc : p c with
      | false => exact ⟨c :: run, gap, more, by simp, by simpa [hc] using hrun, hgap, hmore, hnone⟩
      | true =>
          cases run with
          | nil => exact ⟨[], c :: gap, more, by simp, by simp, by simpa [hc] using hgap, hmore,
              by simp⟩
          | cons d run => exact ⟨[], [c], d :: run ++ (gap ++ more), by simp, by simp,
              by simpa using hc, by simpa using hrun d (by simp), by simp⟩

/-- A text that does not start with white space starts with a run. -/
theorem run_nonempty {p : Char → Bool} {run gap more : List Char}
    (hnonempty : run ++ (gap ++ more) ≠ [])
    (hstart : ∀ c ∈ (run ++ (gap ++ more)).head?, p c = false) (hgap : ∀ c ∈ gap, p c = true)
    (hnone : gap = [] → more = []) : run ≠ [] := by
  rintro rfl
  cases gap with
  | nil => exact hnonempty (hnone rfl)
  | cons c gap =>
      have hlight : p c = true := hgap c (by simp)
      have hdark : p c = false := hstart c rfl
      rw [hlight] at hdark
      cases hdark

/-- A text that does not end with white space goes on after every white space. -/
theorem more_nonempty {p : Char → Bool} {run gap more : List Char}
    (hlast : ∀ c ∈ (run ++ (gap ++ more)).getLast?, p c = false) (hgap : ∀ c ∈ gap, p c = true)
    (hnonempty : gap ≠ []) : more ≠ [] := by
  rintro rfl
  have hend := List.getLast?_eq_some_getLast hnonempty
  have hdark : p (gap.getLast hnonempty) = false := hlast _ (by simp [hend])
  rw [hgap _ (List.getLast_mem hnonempty)] at hdark
  cases hdark

/-- A run without breaks is written character by character. -/
theorem lines_run (write : Char → List Char) (indent : Nat) {run : List Char}
    (hrun : ∀ c ∈ run, isBreak c = false) (rest : List Char) :
    lines write indent false (run ++ rest) =
      run.flatMap write ++ lines write indent false rest := by
  induction run with
  | nil => rfl
  | cons c run ih =>
      have hc : isBreak c = false := hrun c (by simp)
      rw [List.cons_append, lines, ih fun other hother => hrun other (by simp [hother])]
      simp [hc]

/-- Breaks stand for themselves, and what follows them starts a line. -/
theorem lines_breaks (write : Char → List Char) (indent : Nat) (fresh : Bool) {gap : List Char}
    (hgap : ∀ c ∈ gap, isBreak c = true) (hnonempty : gap ≠ []) (rest : List Char) :
    lines write indent fresh (gap ++ rest) = gap ++ lines write indent true rest := by
  induction gap generalizing fresh with
  | nil => exact absurd rfl hnonempty
  | cons c gap ih =>
      have hc : isBreak c = true := hgap c (by simp)
      rw [List.cons_append, lines, if_pos hc]
      by_cases hend : gap = []
      · rw [hend]
        rfl
      · rw [ih true (fun other hother => hgap other (by simp [hother])) hend]
        rfl

/-- A line that is not empty is indented. -/
theorem lines_fresh (write : Char → List Char) (indent : Nat) {text : List Char}
    (hnonempty : text ≠ []) (hdark : ∀ c ∈ text.head?, isBreak c = false) :
    lines write indent true text = blanks indent ++ lines write indent false text := by
  cases text with
  | nil => exact absurd rfl hnonempty
  | cons c text =>
      have hc : isBreak c = false := hdark c rfl
      simp [lines, hc]

theorem length_le_lines {write : Char → List Char} (hwrite : ∀ c, write c ≠ []) (indent : Nat)
    (fresh : Bool) (text : List Char) : text.length ≤ (lines write indent fresh text).length := by
  induction text generalizing fresh with
  | nil => simp
  | cons c text ih =>
      rw [lines]
      split
      · simpa using ih true
      · have hrest := ih false
        have hpos := List.length_pos_iff.mpr (hwrite c)
        simp only [List.length_append, List.length_cons]
        omega

theorem meets_append {p q : Char → Bool} {text rest : List Char}
    (h : meets p q (text ++ rest) = false) : meets p q text = false ∧ meets p q rest = false := by
  induction text with
  | nil => exact ⟨rfl, h⟩
  | cons c text ih =>
      cases text with
      | nil =>
          cases rest with
          | nil => exact ⟨rfl, rfl⟩
          | cons d rest =>
              rw [List.singleton_append, meets, Bool.or_eq_false_iff] at h
              exact ⟨rfl, h.2⟩
      | cons d text =>
          rw [List.cons_append, List.cons_append, meets, Bool.or_eq_false_iff] at h
          obtain ⟨hinner, hrest⟩ := ih h.2
          rw [meets, Bool.or_eq_false_iff]
          exact ⟨⟨h.1, hinner⟩, hrest⟩

/-- Blanks and breaks that do not meet do not stand together. -/
theorem uniform_gap {gap : List Char} (hgap : ∀ c ∈ gap, c = ' ' ∨ IsWrittenBreak c)
    (hbefore : meets (· == ' ') isBreak gap = false)
    (hafter : meets isBreak (· == ' ') gap = false) :
    (∀ c ∈ gap, c = ' ') ∨ ∀ c ∈ gap, IsWrittenBreak c := by
  induction gap with
  | nil => simp
  | cons c gap ih =>
      cases gap with
      | nil => simpa using hgap
      | cons d gap =>
          rw [meets, Bool.or_eq_false_iff, Bool.and_eq_false_iff] at hbefore hafter
          rcases ih (fun other hother => hgap other (by simp [hother])) hbefore.2 hafter.2 with
            hblanks | hbreaks
          · rcases hgap c (by simp) with rfl | hc
            · exact .inl (by simpa using hblanks)
            · have hd := hblanks d (by simp)
              simp [hc.is_break, hd] at hafter
          · have hd : IsWrittenBreak d := hbreaks d (by simp)
            rcases hgap c (by simp) with rfl | hc
            · simp [hd.is_break] at hbefore
            · refine .inr fun other hother => ?_
              rcases List.mem_cons.mp hother with rfl | hother
              · exact hc
              · exact hbreaks other hother

/-- The blanks before the closing quote of a text that ends with a break. -/
def closing (indent : Nat) (text : List Char) : List Char :=
  if text.getLast?.any isBreak then blanks indent else []

theorem closing_append {more : List Char} (h : more ≠ []) (indent : Nat) (text : List Char) :
    closing indent (text ++ more) = closing indent more := by
  rw [closing, closing, List.getLast?_append]
  cases hlast : more.getLast? with
  | none => exact absurd (List.getLast?_eq_none_iff.mp hlast) h
  | some c => rfl

theorem closing_dark {text : List Char} (h : ∀ c ∈ text, isBreak c = false) (indent : Nat) :
    closing indent text = [] := by
  rw [closing]
  cases hlast : text.getLast? with
  | none => rfl
  | some c => simp [h c (List.mem_of_getLast? hlast)]

theorem closing_breaks {text : List Char} (h : ∀ c ∈ text, isBreak c = true)
    (hnonempty : text ≠ []) (indent : Nat) : closing indent text = blanks indent := by
  rw [closing]
  cases hlast : text.getLast? with
  | none => exact absurd (List.getLast?_eq_none_iff.mp hlast) hnonempty
  | some c => simp [h c (List.mem_of_getLast? hlast)]

/-- The characters that are written as a backslash and a letter or a quote. -/
def lettered : List Char :=
  ['"', '\\', '\x00', '\x07', '\x08', '\t', '\n', '\x0b', '\x0c', '\r', '\x1b', '\u0085', '\u2028',
    '\u2029']

/-- Any other character is written as it is or by its number. -/
theorem escape_unlettered {c : Char} (h : c ∉ lettered) :
    escape c =
      if isPrintable c && !isBreak c then [c]
      else if c.toNat ≤ 0xff then '\\' :: 'x' :: hexDigits 2 c.toNat
      else if c.toNat ≤ 0xffff then '\\' :: 'u' :: hexDigits 4 c.toNat
      else '\\' :: 'U' :: hexDigits 8 c.toNat := by
  simp only [lettered, List.mem_cons, List.not_mem_nil, or_false, not_or] at h
  simp only [escape, h, if_false]

theorem escape_dark {c : Char} (hc : c ≠ ' ') (rest : List Char) :
    StartsDark (escape c ++ rest) := by
  by_cases hlettered : c ∈ lettered
  · simp only [lettered, List.mem_cons, List.not_mem_nil, or_false] at hlettered
    rcases hlettered with rfl | rfl | rfl | rfl | rfl | rfl | rfl | rfl | rfl | rfl | rfl | rfl |
      rfl | rfl <;> exact starts_dark_cons.mpr rfl
  · rw [escape_unlettered hlettered]
    split
    · simp only [lettered, List.mem_cons, List.not_mem_nil, or_false, not_or] at hlettered
      rw [List.singleton_append, starts_dark_cons]
      simp_all [isSpace, isGap]
    · split
      · exact starts_dark_cons.mpr rfl
      split
      · exact starts_dark_cons.mpr rfl
      · exact starts_dark_cons.mpr rfl

theorem escape_ne_nil (c : Char) : escape c ≠ [] := by
  by_cases hc : c = ' '
  · rw [hc]
    decide
  · intro hnil
    have hdark := escape_dark hc [' ']
    rw [hnil] at hdark
    exact absurd (starts_dark_cons.mp hdark) (by decide)

theorem length_le_escapes (text : List Char) : text.length ≤ (text.flatMap escape).length := by
  induction text with
  | nil => simp
  | cons c text ih =>
      have hpos := List.length_pos_iff.mpr (escape_ne_nil c)
      simp only [List.flatMap_cons, List.length_append, List.length_cons]
      omega

/-- White space that may be written as it is. -/
theorem written_space {c : Char} (hprintable : isPrintable c = true) (hspace : isSpace c = true) :
    c = ' ' ∨ IsWrittenBreak c := by
  -- tabs and two kinds of break are white space that is never written as it is
  have hne (d : Char) (hd : isPrintable d = false) : c ≠ d := by
    rintro rfl
    rw [hd] at hprintable
    cases hprintable
  have htab : c ≠ '\t' := hne '\t' rfl
  have hreturn : c ≠ '\r' := hne '\r' rfl
  have hnext : c ≠ '\u0085' := hne '\u0085' rfl
  simpa [isSpace, isGap, isBreak, IsWrittenBreak, htab, hreturn, hnext, or_assoc] using hspace

/-- A text that is written plain is read as a text and may stand without quotes. -/
theorem of_eq_plain {text : List Char} (h : of text = plain) :
    isAmbiguous text = false ∧ allowsPlain text = true := by
  unfold of at h
  split at h
  · split at h <;> cases h
  · split at h
    · rename_i hplain
      simpa using hplain
    · split at h <;> cases h

theorem of_eq_single {text : List Char} (h : of text = single) :
    '\n' ∉ text ∧ allowsSingle text = true := by
  unfold of at h
  split at h
  · split at h <;> cases h
  · split at h
    · cases h
    · split at h
      · exact ⟨by simpa using ‹¬ text.contains '\n' = true›, ‹_›⟩
      · cases h

theorem of_eq_literal {text : List Char} (h : of text = literal) :
    '\n' ∈ text ∧ allowsLiteral text = true := by
  unfold of at h
  split at h
  · split at h
    · exact ⟨by simpa using ‹text.contains '\n' = true›, ‹_›⟩
    · cases h
  · split at h
    · cases h
    · split at h <;> cases h

/-- A text that is written without escapes is printable. -/
theorem printable_of_ne_double {text : List Char} (h : of text ≠ double) :
    text.all isPrintable = true := by
  cases hwriting : of text with
  | plain =>
      have hallowed := (of_eq_plain hwriting).2
      simp only [allowsPlain, Bool.not_eq_true', Bool.or_eq_false_iff, Bool.not_eq_false']
        at hallowed
      exact hallowed.2
  | single =>
      have hallowed := (of_eq_single hwriting).2
      simp only [allowsSingle, Bool.and_eq_true] at hallowed
      exact hallowed.1.1
  | double => exact absurd hwriting h
  | literal =>
      have hallowed := (of_eq_literal hwriting).2
      simp only [allowsLiteral, Bool.and_eq_true] at hallowed
      exact hallowed.1.1

theorem spaces_of_ne_double {text : List Char} (h : of text ≠ double) :
    ∀ c ∈ text, isSpace c = true → c = ' ' ∨ IsWrittenBreak c := fun c hc =>
  written_space (List.all_eq_true.mp (printable_of_ne_double h) c hc)

theorem start_means_cons {c : Char} {rest : List Char} (h : startMeans (c :: rest) = false) :
    isOpening c = false ∧ ((c == '?' || c == ':' || c == '-') && startsApart rest) = false := by
  unfold startMeans at h
  split at h
  · cases h
  · cases h
  · rename_i heq
    cases heq
    rwa [Bool.or_eq_false_iff] at h
  · rename_i heq
    cases heq

end Schemata.Yaml.Writing
